import Foreach.Shell.Utility.Format

/-!
Writing texts and formats: `echo` and `printf`.
-/

namespace Foreach.Shell.Utility

/-- The value of an octal digit. -/
def octal? (c : Char) : Option Nat :=
  if '0' ≤ c ∧ c ≤ '7' then some (c.toNat - '0'.toNat) else none

/-- The value of up to `limit` octal digits, and the rest. -/
def takeOctal : Nat → Nat → List Char → Nat × List Char
  | 0, n, cs => (n, cs)
  | limit + 1, n, c :: cs =>
    match octal? c with
    | some d => takeOctal limit (8 * n + d) cs
    | none => (n, c :: cs)
  | _ + 1, n, [] => (n, [])

/-- What a letter behind a backslash stands for. -/
def escapeLetter? (c : Char) : Option Char :=
  if c = 'n' then some '\n'
  else if c = 't' then some '\t'
  else if c = 'r' then some '\r'
  else if c = 'a' then some (Char.ofNat 7)
  else if c = 'b' then some (Char.ofNat 8)
  else if c = 'v' then some (Char.ofNat 11)
  else if c = 'f' then some (Char.ofNat 12)
  else if c = 'e' then some (Char.ofNat 27)
  else if c = '\\' then some '\\'
  else none

/-- The character of an escape behind its backslash, and the rest. -/
def escape? (cs : List Char) : Option (Char × List Char) :=
  match cs with
  | [] => none
  | c :: rest =>
    match escapeLetter? c with
    | some d => some (d, rest)
    | none =>
      if (octal? c).isSome then
        let (n, rest) := takeOctal 3 0 cs
        some (Char.ofNat (n % 256), rest)
      else none

/-- A text with its escapes replaced, and whether output ends there. A zero may stand in front of the
digits of an escape. -/
def unescape : Nat → List Char → List Char × Bool
  | 0, _ => ([], false)
  | _, [] => ([], false)
  | fuel + 1, '\\' :: cs =>
    match cs with
    | 'c' :: _ => ([], true)
    | cs =>
      let found := match cs with
        | '0' :: rest =>
          let (n, rest) := takeOctal 3 0 rest
          some (Char.ofNat (n % 256), rest)
        | cs => escape? cs
      match found with
      | some (c, rest) => let (s, stop) := unescape fuel rest; (c :: s, stop)
      | none => let (s, stop) := unescape fuel cs; ('\\' :: s, stop)
  | fuel + 1, c :: cs => let (s, stop) := unescape fuel cs; (c :: s, stop)

def echo : Utility := fun args m =>
  let (bare, words) := match args with
    | ['-', 'n'] :: rest => (true, rest)
    | args => (false, args)
  let text := spaced words
  let (shown, stopped) := unescape (text.length + 1) text
  m.answer (if bare || stopped then shown else shown ++ ['\n'])

/-! ### Formats -/

open Format (Directive)

/-- What a format gives. -/
structure Formatted where
  text : List Char
  /-- The arguments that are left. -/
  rest : Arguments
  /-- What is wrong with arguments. -/
  flaws : List (List Char)
  /-- What is wrong with the format itself; nothing is put in behind that. -/
  fatal : Option (List Char)
  /-- Nothing more is wanted. -/
  stopped : Bool

namespace Formatted

def nothing (rest : Arguments) : Formatted := ⟨[], rest, [], none, false⟩

def broken (rest : Arguments) (what : List Char) : Formatted := ⟨[], rest, [], some what, false⟩

/-- More text in front, and more flaws. -/
def behind (f : Formatted) (cs : List Char) (flaws : List (List Char)) : Formatted :=
  { f with text := cs ++ f.text, flaws := flaws ++ f.flaws }

end Formatted

/-- A width or precision that stands in a format, or is taken from the arguments where a star is. -/
def takeMeasure (cs : List Char) (args : Arguments) : Option Int × List Char × Arguments × List (List Char) :=
  match cs with
  | '*' :: rest =>
    let arg := args.headD []
    let (n, left) := Format.takeWhole arg
    (some n, rest, args.drop 1, (Format.flawOf arg left).toList)
  | cs =>
    let digits := cs.takeWhile Text.isDigit
    (if digits.isEmpty then none else some (Text.numeral digits), cs.drop digits.length, args, [])

/-- The directive behind a percent sign without its letter, the rest, the arguments that are left, and what
is wrong with those it took. -/
def takeDirective (cs : List Char) (args : Arguments) :
    (Char → Directive) × List Char × Arguments × List (List Char) :=
  let flags := cs.takeWhile fun c => c = '-' || c = '0' || c = ' ' || c = '+' || c = '#'
  let (width, cs, args, flaws) := takeMeasure (cs.drop flags.length) args
  let (precision, cs, args, more) : Option Int × List Char × Arguments × List (List Char) := match cs with
    | '.' :: rest =>
      let (n, rest, args, more) := takeMeasure rest args
      (some (n.getD 0), rest, args, more)
    | cs => (none, cs, args, [])
  let width := width.getD 0
  let flags := if width < 0 then '-' :: flags else flags
  (fun letter => ⟨flags, width.natAbs, precision.bind fun n => if n < 0 then none else some n.toNat, letter⟩,
    cs, args, flaws ++ more)

/-- The whole number of an argument for a letter, and what is wrong with it. -/
def wholeFor (letter : Char) (arg : List Char) : Int × List (List Char) :=
  let (n, left) := Format.takeWhole arg
  let signed := letter = 'd' || letter = 'i'
  let low : Int := if signed then -0x8000000000000000 else -0xffffffffffffffff
  let high : Int := if signed then 0x7fffffffffffffff else 0xffffffffffffffff
  let bounded := max low (min n high)
  (if n < low && !signed then high else bounded,
    (Format.flawOf arg left <|> if n = bounded then none else some (Format.rangeFlaw arg)).toList)

/-- One argument put in by a directive, what is wrong with it, and whether nothing more is wanted. -/
def convert (d : Directive) (arg : List Char) : Option (List Char × List (List Char) × Bool) :=
  let limited (cs : List Char) := (d.precision.map cs.take).getD cs
  if "diuxXo".toList.contains d.letter then
    let (n, flaws) := wholeFor d.letter arg
    some (Format.shownWhole d n, flaws, false)
  else if "eEfFgG".toList.contains d.letter then
    let (x, flaws) : Binary64 × List (List Char) := match arg with
      | '\'' :: _ | '"' :: _ => (.ofInt (Format.takeWhole arg).1, [])
      | arg =>
        let (x, left) := Format.takeReal arg
        (x, (Format.flawOf arg left).toList)
    some (Format.shownReal d x, flaws, false)
  else if d.letter = 'c' then some (d.fill false [arg.headD (Char.ofNat 0)], [], false)
  else if d.letter = 's' then some (d.fill false (limited arg), [], false)
  else if d.letter = 'b' then
    let (text, stopped) := unescape (arg.length + 1) arg
    some (d.fill false (limited text), [], stopped)
  else none

/-- A format once through. -/
def formatOnce : Nat → List Char → Arguments → Formatted
  | 0, _, args => .nothing args
  | _, [], args => .nothing args
  | fuel + 1, '\\' :: cs, args =>
    match escape? cs with
    | some (c, rest) => (formatOnce fuel rest args).behind [c] []
    | none => (formatOnce fuel cs args).behind ['\\'] []
  | fuel + 1, '%' :: '%' :: cs, args => (formatOnce fuel cs args).behind ['%'] []
  | fuel + 1, '%' :: cs, args =>
    let (directive, rest, args, flaws) := takeDirective cs args
    match rest with
    | [] => (Formatted.broken args (octetsOf "missing format character")).behind [] flaws
    | letter :: rest =>
      match convert (directive letter) (args.headD []) with
      | none =>
        let shown := '%' :: cs.take (cs.length - rest.length)
        (Formatted.broken args (shown ++ octetsOf ": invalid directive")).behind [] flaws
      | some (text, more, stopped) =>
        let after := if stopped then { Formatted.nothing (args.drop 1) with stopped := true }
          else formatOnce fuel rest (args.drop 1)
        after.behind text (flaws ++ more)
  | fuel + 1, c :: cs, args => (formatOnce fuel cs args).behind [c] []

/-- A format as often as there are arguments for it. -/
def formatAll : Nat → List Char → Arguments → Formatted
  | 0, _, args => .nothing args
  | fuel + 1, format, args =>
    let once := formatOnce (format.length + 1) format args
    if once.rest.isEmpty ∨ once.rest.length = args.length ∨ once.fatal.isSome ∨ once.stopped then once
    else (formatAll fuel format once.rest).behind once.text once.flaws

def printf : Utility := fun args m =>
  let args := if args.head? = some ['-', '-'] then args.tail else args
  match args with
  | [] => m.protest 2 (octetsOf "usage: printf format [arg ...]")
  | format :: args =>
    let f := formatAll (args.length + 1) format args
    let warned := f.flaws.foldl (fun m flaw => m.protest 1 flaw) (m.finish 0)
    match f.fatal with
    | some what => (warned.protest 2 what).say f.text
    | none => warned.say f.text

end Foreach.Shell.Utility

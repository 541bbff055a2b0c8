import Foreach.Shell.Utility.Lines

/-!
Numbers: `seq` and `expr`.
-/

namespace Foreach.Shell.Utility

/-! ### Sequences -/

/-- A decimal number: how many parts, and how many places behind the point its numeral has. -/
structure Decimal where
  parts : Int
  places : Nat

/-- The decimal number that a word is. -/
def decimal? (cs : List Char) : Option Decimal :=
  let negative := cs.head? = some '-'
  let body := if negative || cs.head? = some '+' then cs.drop 1 else cs
  let whole := body.takeWhile Text.isDigit
  let (fraction, rest) := match body.drop whole.length with
    | '.' :: rest => (rest.takeWhile Text.isDigit, rest.dropWhile Text.isDigit)
    | rest => ([], rest)
  if !rest.isEmpty || (whole.isEmpty && fraction.isEmpty) then none
  else
    let n : Nat := Text.numeral (whole ++ fraction)
    some ⟨if negative then -(n : Int) else n, fraction.length⟩

/-- The parts of a number with more places. -/
def Decimal.at (d : Decimal) (places : Nat) : Int := d.parts * (Nat.pow 10 (places - d.places) : Nat)

/-- The numeral of so many parts of a number. -/
def decimalText (parts : Int) (places : Nat) : List Char :=
  let digits := shown parts.natAbs
  let digits := List.replicate (places + 1 - digits.length) '0' ++ digits
  let whole := digits.take (digits.length - places)
  (if parts < 0 then ['-'] else []) ++ whole ++ if places = 0 then [] else '.' :: digits.drop whole.length

/-- The numbers from one to another in steps. -/
def progression (first step last : Int) : List Int :=
  if step = 0 then []
  else
    let count := Int.fdiv (last - first) step + 1
    (List.range (min count.toNat 100000)).map fun (i : Nat) => first + i * step

/-- The options of `seq`, up to a word that is a number; `waiting` tells that a value is to come. -/
def seqOptions (waiting : Bool) : Arguments → Arguments × Arguments
  | [] => ([], [])
  | a :: rest =>
    let next := (a.drop 1).head?
    if waiting then let (more, words) := seqOptions false rest; (a :: more, words)
    else if a.head? = some '-' ∧ !(next.any fun c => Text.isDigit c || c = '.') ∧ a ≠ ['-', '-'] then
      let (more, words) := seqOptions (a = ['-', 's'] || a = ['-', 'f']) rest
      (a :: more, words)
    else ([], if a = ['-', '-'] then rest else a :: rest)

def seq : Utility := fun args m =>
  let (options, words) := seqOptions false args
  let names := [("separator", 's'), ("equal-width", 'w'), ("format", 'f')]
  match readOptions (accepting "s:wf:" names) false none options with
  | .error flaw => misused "seq" 1 flaw.message m
  | .ok g =>
    match words, words.find? fun a => (decimal? a).isNone with
    | [], _ => misused "seq" 1 (octetsOf "missing operand") m
    | _, some a => misused "seq" 1 (octetsOf "invalid floating point argument: ‘" ++ a ++ octetsOf "’") m
    | words, none =>
      let told (first step last : Decimal) : Machine :=
        if step.parts = 0 then
          misused "seq" 1 (octetsOf "invalid Zero increment value: ‘" ++ (words[1]?).getD [] ++ octetsOf "’") m
        else
          let places := max first.places step.places
          let deep := max places last.places
          let unit : Int := (Nat.pow 10 (deep - places) : Nat)
          let ns := (progression (first.at deep) (step.at deep) (last.at deep)).map (· / unit)
          let texts := ns.map (decimalText · places)
          let width := (texts.map List.length).foldl max 0
          let texts := if g.has 'w' then texts.map (widened false true width) else texts
          let text := joinWith ((g.value? 's').getD ['\n']) texts
          m.answer (if texts.isEmpty then [] else text ++ ['\n'])
      match words.filterMap decimal? with
      | [last] => told ⟨1, 0⟩ ⟨1, 0⟩ last
      | [first, last] => told first ⟨1, 0⟩ last
      | [first, step, last] => told first step last
      | _ => misused "seq" 1 (octetsOf "extra operand ‘" ++ (words[3]?).getD [] ++ octetsOf "’") m

/-! ### Expressions -/

/-- Why an expression has no value. -/
inductive ExprFlaw where
  | missing (behind : List Char)
  | unexpected (word : List Char)
  | expecting (sign : String) (behind : List Char)
  | syntactic
  | noInteger
  | division
  | pattern (flaw : Regex.Defect)

def ExprFlaw.message : ExprFlaw → List Char
  | .missing behind => octetsOf "syntax error: missing argument after ‘" ++ behind ++ octetsOf "’"
  | .unexpected word => octetsOf "syntax error: unexpected argument ‘" ++ word ++ octetsOf "’"
  | .expecting sign behind => octetsOf s!"syntax error: expecting '{sign}' after ‘" ++ behind ++ octetsOf "’"
  | .syntactic => octetsOf "syntax error"
  | .noInteger => octetsOf "non-integer argument"
  | .division => octetsOf "division by zero"
  | .pattern flaw => octetsOf flaw.message

/-- A number as `expr` reads it. -/
def integer? (cs : List Char) : Option Int := if cs.head? = some '+' then none else number? cs

/-- Whether a value counts as false. -/
def isVoid (cs : List Char) : Bool := cs.isEmpty || integer? cs = some 0

/-- What a pattern fits at the start of a text: the text of its group, or how much it is. -/
def fitted (a b : List Char) : Except ExprFlaw (List Char) :=
  match Regex.read ⟨false, false⟩ (wide b) with
  | .error flaw => .error (.pattern flaw)
  | .ok (r, groups) =>
    match (Regex.both .start r).longest false ⟨0, none, wide a, []⟩ with
    | some t => .ok (if 0 < groups then narrow ((t.groups.lookup 1).getD []) else shown t.seen)
    | none => .ok (if 0 < groups then [] else ['0'])

/-- The value that an operator between two values gives. -/
def combined (o : String) (a b : List Char) : Except ExprFlaw (List Char) :=
  let ofBool (p : Bool) : Except ExprFlaw (List Char) := .ok (if p then ['1'] else ['0'])
  let numbers (f : Int → Int → Except ExprFlaw Int) : Except ExprFlaw (List Char) :=
    match integer? a, integer? b with
    | some x, some y => (f x y).map Text.intNumeral
    | _, _ => .error .noInteger
  let compare (f : Int → Int → Bool) (g : String → String → Bool) : Except ExprFlaw (List Char) :=
    match integer? a, integer? b with
    | some x, some y => ofBool (f x y)
    | _, _ => ofBool (g (textOf a) (textOf b))
  match o with
  | "+" => numbers fun x y => .ok (x + y)
  | "-" => numbers fun x y => .ok (x - y)
  | "*" => numbers fun x y => .ok (x * y)
  | "/" => numbers fun x y => if y = 0 then .error .division else .ok (Int.tdiv x y)
  | "%" => numbers fun x y => if y = 0 then .error .division else .ok (Int.tmod x y)
  | "=" | "==" => compare (fun x y => x = y) fun x y => x = y
  | "!=" => compare (fun x y => x ≠ y) fun x y => x ≠ y
  | "<" => compare (fun x y => x < y) fun x y => x < y
  | ">" => compare (fun x y => y < x) fun x y => y < x
  | "<=" => compare (fun x y => x ≤ y) fun x y => x ≤ y
  | ">=" => compare (fun x y => y ≤ x) fun x y => y ≤ x
  | "|" => .ok (if !isVoid a then a else if isVoid b then ['0'] else b)
  | "&" => .ok (if isVoid a || isVoid b then ['0'] else a)
  | _ => fitted a b

/-- How tightly an operator binds; the loosest is zero. -/
def tightness? (o : List Char) : Option Nat :=
  match textOf o with
  | "|" => some 0
  | "&" => some 1
  | "<" | "<=" | "=" | "==" | "!=" | ">=" | ">" => some 2
  | "+" | "-" => some 3
  | "*" | "/" | "%" => some 4
  | ":" => some 5
  | _ => none

/-- A value that has been read, the words behind it, and the word before them. -/
abbrev ExprResult := Except ExprFlaw (List Char × Arguments × List Char)

mutual

/-- The value of words up to an operator that binds less tightly than a level; `before` is the word in front
of them, and `fuel` bounds what is read. -/
def levelOf : Nat → Nat → List Char → Arguments → ExprResult
  | 0, _, _, _ => .error .syntactic
  | fuel + 1, level, before, args =>
    if 6 ≤ level then single fuel before args
    else do
      let (a, rest, before) ← levelOf fuel (level + 1) before args
      further fuel level a before rest

/-- The value of operators of a level and what they stand in front of. -/
def further : Nat → Nat → List Char → List Char → Arguments → ExprResult
  | 0, _, _, _, _ => .error .syntactic
  | fuel + 1, level, a, before, args =>
    match args with
    | [] => .ok (a, [], before)
    | o :: rest =>
      if tightness? o = some level then do
        let (b, rest, before) ← levelOf fuel (level + 1) o rest
        further fuel level (← combined (textOf o) a b) before rest
      else .ok (a, o :: rest, before)

/-- A value that is no operation between others. -/
def single : Nat → List Char → Arguments → ExprResult
  | 0, _, _ => .error .syntactic
  | fuel + 1, before, args =>
    match args with
    | [] => .error (.missing before)
    | a :: rest =>
      match textOf a with
      | "(" => do
        let (v, rest, last) ← levelOf fuel 0 a rest
        match rest with
        | [')'] :: rest => return (v, rest, [')'])
        | [] => .error (.expecting ")" last)
        | w :: _ => .error (.expecting ")" w)
      | ")" => .error (.unexpected a)
      | "+" =>
        match rest with
        | w :: rest => .ok (w, rest, w)
        | [] => .error (.missing a)
      | "length" => do
        let (v, rest, last) ← single fuel a rest
        return (shown (wide v).length, rest, last)
      | "match" => do
        let (v, rest, last) ← single fuel a rest
        let (p, rest, last) ← single fuel last rest
        return (← fitted v p, rest, last)
      | "index" => do
        let (v, rest, last) ← single fuel a rest
        let (set, rest, last) ← single fuel last rest
        let place := ((wide v).findIdx? (wide set).contains).map (· + 1)
        return (shown (place.getD 0), rest, last)
      | "substr" => do
        let (v, rest, last) ← single fuel a rest
        let (i, rest, last) ← single fuel last rest
        let (n, rest, last) ← single fuel last rest
        let start := (integer? i).getD 0
        let count := (integer? n).getD 0
        return (if start < 1 ∨ count < 1 then [] else
          narrow (((wide v).drop (start.toNat - 1)).take count.toNat), rest, last)
      | _ => .ok (a, rest, a)

end

def expr : Utility := fun args m =>
  let args := if args.head? = some ['-', '-'] then args.drop 1 else args
  if args.isEmpty then misused "expr" 2 (octetsOf "missing operand") m
  else
    match levelOf (20 * args.length + 20) 0 [] args with
    | .error flaw => m.refuse 2 (octetsOf "expr: " ++ flaw.message)
    | .ok (_, w :: _, _) => m.refuse 2 (octetsOf "expr: " ++ (ExprFlaw.unexpected w).message)
    | .ok (v, [], _) => (m.say (v ++ ['\n'])).finish (if isVoid v then 1 else 0)

end Foreach.Shell.Utility

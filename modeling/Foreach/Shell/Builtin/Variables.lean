import Foreach.Shell.Builtin.Flow
import Foreach.Shell.Expand
import Foreach.Shell.Utility.Print

/-!
Commands that change variables and settings.
-/

namespace Foreach.Shell.Builtin

/-! ### Declarations -/

/-- Names and values as assignments that can be read again. -/
def assignmentLines (front : String) (m : Machine) (names : List (List Char)) : List Char :=
  let sorted := names.mergeSort fun a b => decide (String.ofList a ≤ String.ofList b)
  sorted.flatMap fun name =>
    let value := match m.value? name with
      | some v => '=' :: inQuotes v
      | none => []
    octetsOf front ++ name ++ value ++ ['\n']

/-- Complains of a word that is no name. -/
def badName (name : List Char) (m : Machine) : Machine :=
  m.abandon (name ++ octetsOf ": bad variable name")

/-- Does something with the names of words, which may be assignments. -/
def declareEach (mark : List Char → Machine → Machine) : Arguments → Machine → Machine
  | [], m => m
  | a :: rest, m =>
    let name := a.takeWhile (· != '=')
    if !isName name then badName name m
    else
      let m := match a.dropWhile (· != '=') with
        | _ :: value => m.assign name value
        | [] => m
      if m.ending.isSome then m else declareEach mark rest (mark name m)

/-- Makes variables known to commands. -/
def makeKnown : Utility := fun args m =>
  if args.isEmpty || args = [['-', 'p']] then m.answer (assignmentLines "export " m m.exported)
  else declareEach (fun name m => m.publish name) args (m.finish 0)

/-- Makes variables keep their values. -/
def freeze : Utility := fun args m =>
  if args.isEmpty || args = [['-', 'p']] then m.answer (assignmentLines "readonly " m m.frozen)
  else declareEach (fun name m => { m with frozen := name :: m.frozen }) args (m.finish 0)

/-- Makes variables those of the function that runs, until it ends. -/
def makeLocal : Utility := fun args m =>
  match m.locals with
  | none => m.abandon (octetsOf "not in a function")
  | some saved =>
    let names := args.map fun a => a.takeWhile (· != '=')
    let fresh := names.filter fun n => (saved.lookup n).isNone
    declareEach (fun _ m => m) args
      { m.finish 0 with locals := some (fresh.map (fun n => (n, m.value? n)) ++ saved) }

/-- Forgets variables or functions. -/
def unset : Utility := fun args m =>
  let (options, names) := Utility.takeOptions args
  if options.contains 'f' then
    { m with functions := m.functions.filter fun (n, _) => !names.contains n, status := 0 }
  else
    match names.find? fun n => !isName n || m.frozen.contains n with
    | some n => if isName n then m.abandon (n ++ octetsOf ": is read only") else badName n m
    | none => { m with vars := m.vars.filter fun (n, _) => !names.contains n, status := 0 }

/-! ### Reading -/

/-- Characters of a line, each with whether it is quoted. -/
abbrev Marked := List (Bool × Char)

/-- A line of a text, and the text behind it; none at the end of the text. A backslash quotes the character
behind it, and a quoted line end is none. -/
def takeLine (raw : Bool) : List Char → Marked × Option (List Char)
  | [] => ([], none)
  | '\n' :: rest => ([], some rest)
  | c :: rest =>
    if c = '\\' ∧ !raw then
      match rest with
      | [] => ([], none)
      | '\n' :: rest => takeLine raw rest
      | d :: rest => let (line, left) := takeLine raw rest; ((true, d) :: line, left)
    else let (line, left) := takeLine raw rest; ((false, c) :: line, left)

/-- Whether a character separates words, and whether it is a blank that does. -/
def separates (ifs : List Char) (c : Bool × Char) : Bool := !c.1 && ifs.contains c.2

def separatesAsBlank (ifs : List Char) (c : Bool × Char) : Bool :=
  separates ifs c && (c.2 = ' ' || c.2 = '\t' || c.2 = '\n')

/-- What is behind a word: blanks, and at most one other separator with the blanks behind it. -/
def skipSeparator (ifs : List Char) (cs : Marked) : Marked :=
  let rest := cs.dropWhile (separatesAsBlank ifs)
  match rest with
  | c :: more => if separates ifs c then more.dropWhile (separatesAsBlank ifs) else rest
  | [] => []

/-- The last of the words of a line: all that is left, unless just one word and its separator are. -/
def lastShare (ifs : List Char) (cs : Marked) : Marked :=
  let trimmed := (cs.reverse.dropWhile (separatesAsBlank ifs)).reverse
  let word := trimmed.takeWhile fun c => !separates ifs c
  if (skipSeparator ifs (trimmed.drop word.length)).isEmpty then word else trimmed

/-- The words of a line, the last one being all that is left when there are enough. -/
def share (ifs : List Char) : Nat → Marked → List (List Char)
  | 0, _ => []
  | 1, cs => [(lastShare ifs cs).map (·.2)]
  | n + 1, cs =>
    let word := cs.takeWhile fun c => !separates ifs c
    word.map (·.2) :: share ifs n (skipSeparator ifs (cs.drop word.length))

/-- Reads a line into variables. -/
def read : Utility := fun args m =>
  let (prompt, rest) := Utility.takeValue 'p' args
  let (options, names) := Utility.takeOptions (if prompt.isSome then rest else args)
  match options.find? (· != 'r'), names.find? fun n => !isName n with
  | some c, _ => m.protest 2 (octetsOf "Illegal option -" ++ [c])
  | none, some n => badName n m
  | none, none =>
    if names.isEmpty then m.protest 2 (octetsOf "arg count")
    else
      let (line, left) := takeLine (options.contains 'r') m.input
      let m := m.setInput (left.getD [])
      let ifs := m.separators
      let values := share ifs names.length (line.dropWhile (separatesAsBlank ifs))
      let filled := (names.zip (values ++ List.replicate names.length [])).foldl
        (fun m (name, value) => m.assign name value) m
      if filled.ending.isSome then filled else filled.finish (if left.isSome then 0 else 1)

/-! ### Options of scripts -/

/-- The number in a variable. -/
def numberIn (m : Machine) (name : String) : Nat :=
  ((m.value? (octetsOf name)).bind natural?).getD 1

/-- Reads the next option of some words, the present word being `word` and its options left `letters`. -/
def nextOption (quiet : Bool) (accepted : List Char) (name : List Char) (args : Arguments) (index : Nat)
    (letter : Char) (letters : List Char) (m : Machine) : Machine :=
  let say (m : Machine) (found : List Char) (argument : Option (List Char)) (index : Nat)
      (letters : List Char) : Machine :=
    let m := (m.assign name found).assign (octetsOf "OPTIND") (Utility.shown index)
    { m.resetVariable (octetsOf "OPTARG") argument with optionsLeft := letters, status := 0 }
  let behind := if letters.isEmpty then index + 1 else index
  let rest := (accepted.dropWhile (· != letter)).drop 1
  if letter = ':' || !accepted.contains letter then
    let m := if quiet then m else m.complain (octetsOf "Illegal option -" ++ [letter, '\n'])
    say m ['?'] (if quiet then some [letter] else none) behind letters
  else if rest.head? = some ':' then
    if !letters.isEmpty then say m [letter] (some letters) (index + 1) []
    else
      match args[index]? with
      | some value => say m [letter] (some value) (index + 2) []
      | none =>
        let m := if quiet then m else
          m.complain (octetsOf "No arg for -" ++ letter :: octetsOf " option\n")
        say m (if quiet then [':'] else ['?']) (if quiet then some [letter] else none) (index + 1) []
  else say m [letter] (some []) behind letters

def getopts : Utility := fun args m =>
  match args with
  | accepted :: name :: given =>
    let words := if given.isEmpty then m.arguments else given
    let index := numberIn m "OPTIND"
    let quiet := accepted.head? = some ':'
    let finished (index : Nat) : Machine :=
      let m := (m.assign name ['?']).assign (octetsOf "OPTIND") (Utility.shown index)
      { m with optionsLeft := [], status := 1 }
    match m.optionsLeft with
    | letter :: letters => nextOption quiet accepted name words index letter letters m
    | [] =>
      match words[index - 1]? with
      | some ['-', '-'] => finished (index + 1)
      | some ('-' :: letter :: letters) => nextOption quiet accepted name words index letter letters m
      | _ => finished index
  | _ => m.protest 2 (octetsOf "Usage: getopts optstring var [arg]")

/-! ### Settings -/

/-- The settings by letter and name, in their order. -/
def settings : List (Char × String) :=
  [('e', "errexit"), ('f', "noglob"), ('I', "ignoreeof"), ('i', "interactive"), ('m', "monitor"),
    ('n', "noexec"), ('s', "stdin"), ('x', "xtrace"), ('v', "verbose"), ('V', "vi"), ('E', "emacs"),
    ('C', "noclobber"), ('a', "allexport"), ('b', "notify"), ('u', "nounset"), ('p', "privileged"),
    ('L', "nolog"), ('D', "debug")]

/-- The letters that stand for settings among options. -/
def isSetting (c : Char) : Bool := "efIimnsxvVECabup".toList.contains c

/-- A shell with a setting switched. -/
def switch (m : Machine) (on : Bool) (letter : Char) : Machine :=
  let others := m.flags.filter (· != letter)
  { m with flags := if on then letter :: others else others }

/-- The settings as lines. -/
def settingLines (m : Machine) : List Char :=
  octetsOf "Current option settings\n" ++ settings.flatMap fun (letter, name) =>
    octetsOf name ++ List.replicate (16 - name.length) ' '
      ++ octetsOf (if m.has letter then "on\n" else "off\n")

/-- Changes settings by words, and gives the words behind them; a single dash counts among these if
nothing else does. -/
def changeSettings : Arguments → Machine → Option Arguments × Machine
  | [], m => (none, m)
  | a :: rest, m =>
    if a = ['-', '-'] then (some rest, m)
    else
      match a with
      | ['-'] => (if rest.isEmpty then none else some rest, switch (switch m false 'x') false 'v')
      | [sign, 'o'] =>
        let on := sign = '-'
        if sign ≠ '-' ∧ sign ≠ '+' then (some (a :: rest), m)
        else
          match rest with
          | [] => (none, m.say (settingLines m))
          | name :: rest =>
            match settings.find? fun (_, n) => octetsOf n = name with
            | some (letter, _) => changeSettings rest (switch m on letter)
            | none => (none, m.abandon (octetsOf "Illegal option " ++ sign :: octetsOf "o " ++ name))
      | sign :: letter :: letters =>
        if sign ≠ '-' ∧ sign ≠ '+' then (some (a :: rest), m)
        else
          match (letter :: letters).find? fun c => !isSetting c with
          | some c => (none, m.abandon (octetsOf "Illegal option " ++ [sign, c]))
          | none => changeSettings rest ((letter :: letters).foldl (fun m c => switch m (sign = '-') c) m)
      | a => (some (a :: rest), m)

/-- Changes settings and arguments. -/
def set : Utility := fun args m =>
  if args.isEmpty then m.answer (assignmentLines "" m (m.vars.map (·.1)))
  else match changeSettings args (m.finish 0) with
  | (some words, m) => { m with arguments := words, optionsLeft := [] }
  | (none, m) => m

/-- Drops the first arguments. -/
def shift : Utility := fun args m =>
  match args.head?.elim (some 1) natural? with
  | none => illegalNumber (args.headD []) m
  | some n =>
    if n ≤ m.arguments.length then { m with arguments := m.arguments.drop n, status := 0 }
    else m.abandon (octetsOf "can't shift that many")

/-- The digits of a mask. -/
def maskText (mask : Nat) : List Char := Text.padded 8 4 mask

/-- The permissions that a mask leaves, by their letters. -/
def permissionsText (mask : Nat) : List Char :=
  let part (who : Char) (bits : Nat) : List Char :=
    let letters := (if bits / 4 % 2 = 0 then ['r'] else []) ++ (if bits / 2 % 2 = 0 then ['w'] else [])
      ++ (if bits % 2 = 0 then ['x'] else [])
    who :: '=' :: letters
  part 'u' (mask / 64) ++ ',' :: part 'g' (mask / 8) ++ ',' :: part 'o' mask

def umask : Utility := fun args m =>
  match args with
  | [] => m.answer (maskText m.mask ++ ['\n'])
  | [['-', 'S']] => m.answer (permissionsText m.mask ++ ['\n'])
  | a :: _ =>
    if !a.isEmpty && a.all fun c => (Utility.octal? c).isSome then
      { m.finish 0 with mask := a.foldl (fun n c => 8 * n + (Utility.octal? c).getD 0) 0 % 512 }
    else if (a.head?.map Char.isDigit).getD false then m.protest 2 (octetsOf "Illegal number: " ++ a)
    else m.protest 2 (octetsOf "Illegal mode: " ++ a)

end Foreach.Shell.Builtin

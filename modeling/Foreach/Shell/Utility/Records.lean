import Foreach.Shell.Utility.Editing

/-!
Printing parts of records: programs for `awk` that have one rule, with a condition and a `print`.
-/

namespace Foreach.Shell.Utility

/-- A value in a rule. -/
inductive Part where
  | literal (cs : List Char)
  | field (index : Nat)
  | lastField
  | fieldCount
  | recordNumber
  | length (p : Part)
  | upper (p : Part)
  | lower (p : Part)
  deriving Repr

/-- A record: its number, its text and its fields. -/
structure Record where
  number : Nat
  text : List Char
  fields : List (List Char)

def Part.text (r : Record) : Part → List Char
  | .literal cs => cs
  | .field n => if n = 0 then r.text else (r.fields[n - 1]?).getD []
  | .lastField => r.fields.getLast?.getD r.text
  | .fieldCount => shown r.fields.length
  | .recordNumber => shown r.number
  | .length p => shown (encodedChars (p.text r)).length
  | .upper p => (p.text r).map Char.toUpper
  | .lower p => (p.text r).map Char.toLower

/-- When a rule is for a record. -/
inductive Condition where
  | always
  | fits (r : Regex)
  | isNumber (n : Nat)

def Condition.holds (c : Condition) (r : Record) : Bool :=
  match c with
  | .always => true
  | .fits p => p.isIn false (wide r.text)
  | .isNumber n => n = r.number

/-- A text up to a double quote, with its escapes replaced, and what is behind it. -/
def literalPart : List Char → List Char × List Char
  | [] => ([], [])
  | '\\' :: c :: rest =>
    let (s, r) := literalPart rest
    ((escapeLetter? c).getD c :: s, r)
  | c :: rest => if c = '"' then ([], rest) else let (s, r) := literalPart rest; (c :: s, r)

/-- A value at the start of a text, and what is behind it; `fuel` bounds how deep it is. -/
def part? : Nat → List Char → Option (Part × List Char)
  | 0, _ => none
  | fuel + 1, cs =>
    match cs with
    | '"' :: rest => (let (s, rest) := literalPart rest; some (.literal s, rest))
    | '$' :: 'N' :: 'F' :: rest => some (.lastField, rest)
    | '$' :: rest =>
      let digits := rest.takeWhile Text.isDigit
      if digits.isEmpty then none
      else some (.field (Text.numeral digits), rest.drop digits.length)
    | c :: rest =>
      if Text.isDigit c then
        let digits := (c :: rest).takeWhile Text.isDigit
        some (.literal digits, (c :: rest).drop digits.length)
      else
        let name := (c :: rest).takeWhile isNameChar
        let behind := (c :: rest).drop name.length
        let of (make : Part → Part) : Option (Part × List Char) := match behind with
          | '(' :: inner =>
            match part? fuel (inner.dropWhile (· = ' ')) with
            | some (p, rest) =>
              match rest.dropWhile (· = ' ') with
              | ')' :: rest => some (make p, rest)
              | _ => none
            | none => none
          | _ => none
        match textOf name with
        | "NF" => some (.fieldCount, behind)
        | "NR" => some (.recordNumber, behind)
        | "length" => of .length <|> some (.length (.field 0), behind)
        | "toupper" => of .upper
        | "tolower" => of .lower
        | _ => none
    | [] => none

/-- The values up to the closing brace: each row of them is joined, and rows are apart by a blank. -/
def parts? : Nat → List Char → Option (List (List Part) × List Char)
  | 0, _ => none
  | fuel + 1, cs =>
    match cs.dropWhile (· = ' ') with
    | '\x7d' :: rest => some ([[]], rest)
    | ';' :: rest => parts? fuel rest
    | ',' :: rest => (parts? fuel rest).map fun (rows, r) => ([] :: rows, r)
    | cs =>
      (part? fuel cs).bind fun (p, rest) => (parts? fuel rest).map fun (rows, r) =>
        match rows with
        | row :: rows => ((p :: row) :: rows, r)
        | [] => ([[p]], r)

/-- The condition in front of a rule, and what is behind it. -/
def condition? (cs : List Char) : Option (Condition × List Char) :=
  match cs with
  | '/' :: rest =>
    (takePart '/' rest).bind fun (text, rest) =>
      ((Regex.read ⟨true, true⟩ (wide text)).toOption).map fun (r, _) => (.fits r, rest)
  | 'N' :: 'R' :: '=' :: '=' :: rest =>
    let digits := rest.takeWhile Text.isDigit
    some (.isNumber (Text.numeral digits), rest.drop digits.length)
  | '\x7b' :: _ => some (.always, cs)
  | _ => none

/-- A rule: its condition, and the rows that it prints. -/
def rule? (cs : List Char) : Option (Condition × List (List Part)) :=
  (condition? (cs.dropWhile (· = ' '))).bind fun (c, rest) =>
    match rest.dropWhile (· = ' ') with
    | [] => some (c, [[]])
    | '\x7b' :: rest =>
      match rest.dropWhile (· = ' ') with
      | 'p' :: 'r' :: 'i' :: 'n' :: 't' :: rest =>
        (parts? (rest.length + 2) rest).bind fun (rows, rest) =>
          if (rest.all fun c => c = ' ') then some (c, rows) else none
      | _ => none
    | _ => none

/-- The line that a rule prints for a record. -/
def printed (rows : List (List Part)) (r : Record) : List Char :=
  if rows.all List.isEmpty then r.text
  else spaced (rows.map fun row => row.flatMap (·.text r))

def awk : Utility := fun args m =>
  let (separator, args) := takeValue 'F' args
  match rule? (args.headD []) with
  | none => m.refuse 2 (octetsOf "awk: syntax error")
  | some (c, rows) =>
    let (cs, m) := contents "awk" (args.drop 1) m
    let fieldsOf (l : List Char) := match separator with
      | some (s :: _) => Text.split s l
      | _ => words l
    let records := ((lines cs).zipIdx 1).map fun (l, n) => (⟨n, l, fieldsOf l⟩ : Record)
    m.say (unlines ((records.filter c.holds).map (printed rows)))

end Foreach.Shell.Utility

import Foreach.Shell.Word
import Foreach.Text.Digits

/-!
Arithmetic expressions of shell commands: whole numbers of 64 bits, with names for variables.

An operand that does not count is read all the same, but it is not `live`: nothing is assigned in it and
nothing in it can fail.
-/

namespace Foreach.Shell.Arithmetic

/-- A part of an expression. -/
inductive Lexeme where
  | number (n : Int)
  | name (cs : List Char)
  | operator (text : String)
  deriving DecidableEq, Repr

/-- What is wrong with an expression. -/
inductive Mishap where
  | noPrimary
  | noEnd
  | byZero
  | noParenthesis
  | noColon
  /-- The value of a variable is no number. -/
  | illegal (value : List Char)
  deriving DecidableEq, Repr

/-- The message about an expression. -/
def Mishap.message (expression : List Char) : Mishap → List Char
  | .noPrimary => about "expecting primary"
  | .noEnd => about "expecting EOF"
  | .byZero => about "division by zero"
  | .noParenthesis => about "expecting ')'"
  | .noColon => about "expecting ':'"
  | .illegal value => "Illegal number: ".toList ++ value
where
  about (what : String) : List Char :=
    "arithmetic expression: ".toList ++ what.toList ++ ": \"".toList ++ expression ++ ['"']

/-- Variables with their values. -/
abbrev Variables := List (List Char × List Char)

def operators : List String :=
  ["<<=", ">>=", "<<", ">>", "<=", ">=", "==", "!=", "&&", "||", "+=", "-=", "*=", "/=", "%=",
    "&=", "^=", "|=", "+", "-", "*", "/",
    "%", "<", ">", "!", "~", "&", "^", "|", "?", ":", "(", ")", "="]

/-- The value of a digit in a base. -/
def digit? (base : Nat) (c : Char) : Option Nat :=
  let value := if c.isDigit then c.toNat - '0'.toNat
    else if 'a' ≤ c.toLower && c.toLower ≤ 'z' then c.toLower.toNat - 'a'.toNat + 10
    else base
  if value < base then some value else none

/-- The number that the digits of a base in front of a text denote, and the rest. -/
def takeDigits (base : Nat) (cs : List Char) : Nat × List Char :=
  let digits := cs.takeWhile fun c => (digit? base c).isSome
  ((digits.filterMap (digit? base)).foldl (fun n d => base * n + d) 0, cs.drop digits.length)

/-- The number in front of a text, in base eight behind a zero and in base sixteen behind `0x`, and the
rest. -/
def takeNumber (cs : List Char) : Nat × List Char :=
  match cs with
  | '0' :: x :: d :: rest =>
    if (x = 'x' ∨ x = 'X') ∧ (digit? 16 d).isSome then takeDigits 16 (d :: rest)
    else takeDigits 8 cs
  | '0' :: _ => takeDigits 8 cs
  | cs => takeDigits 10 cs

/-- A blank of ASCII. -/
def isSpace (c : Char) : Bool := c = ' ' || (9 ≤ c.toNat && c.toNat ≤ 13)

/-- The number with a sign in front of a text, which may begin with blanks, and the rest; without a number
nothing is taken. -/
def takeSigned (cs : List Char) : Option (Int × List Char) :=
  let inner := cs.dropWhile isSpace
  let (negative, body) := match inner with
    | '-' :: rest => (true, rest)
    | '+' :: rest => (false, rest)
    | rest => (false, rest)
  if (body.head?.map Char.isDigit).getD false then
    let (n, rest) := takeNumber body
    some (if negative then -(n : Int) else n, rest)
  else none

/-- The nearest number that 64 bits hold. -/
def bounded (n : Int) : Int := max (-0x8000000000000000) (min n 0x7fffffffffffffff)

/-- The parts of an expression; `fuel` is more than the length. -/
def lexemes : Nat → List Char → List Lexeme
  | 0, _ => []
  | _, [] => []
  | fuel + 1, c :: cs =>
    if c = ' ' || c = '\t' || c = '\n' then lexemes fuel cs
    else if c.isDigit then
      let (n, rest) := takeNumber (c :: cs)
      .number (bounded n) :: lexemes fuel rest
    else if isNameStart c then
      let name := (c :: cs).takeWhile isNameChar
      .name name :: lexemes fuel ((c :: cs).drop name.length)
    else
      match operators.find? fun o => o.toList.isPrefixOf (c :: cs) with
      | some o => .operator o :: lexemes fuel ((c :: cs).drop o.length)
      | none => .operator (String.singleton c) :: lexemes fuel cs

/-- A number as 64 bits hold it. -/
def wrap (n : Int) : Int := Int.bmod n 0x10000000000000000

def ofBool (b : Bool) : Int := if b then 1 else 0

def shiftLeft (a b : Int) : Int := a * (Nat.pow 2 (b % 64).toNat : Nat)

def shiftRight (a b : Int) : Int := Int.fdiv a (Nat.pow 2 (b % 64).toNat : Nat)

/-- The bits of a number below zero are those of its complement, inverted. -/
def bitwise (f : Bool → Bool → Bool) (a b : Int) : Int :=
  let natural (n : Int) : Nat := (n % 0x10000000000000000).toNat
  wrap (Nat.bitwise f (natural a) (natural b))

def apply2 (o : String) (a b : Int) : Except Mishap Int :=
  match o with
  | "+" => .ok (wrap (a + b))
  | "-" => .ok (wrap (a - b))
  | "*" => .ok (wrap (a * b))
  | "/" => if b = 0 then .error .byZero else .ok (wrap (Int.tdiv a b))
  | "%" => if b = 0 then .error .byZero else .ok (Int.tmod a b)
  | "<<" => .ok (wrap (shiftLeft a b))
  | ">>" => .ok (shiftRight a b)
  | "<" => .ok (ofBool (a < b))
  | ">" => .ok (ofBool (b < a))
  | "<=" => .ok (ofBool (a ≤ b))
  | ">=" => .ok (ofBool (b ≤ a))
  | "==" => .ok (ofBool (a = b))
  | "!=" => .ok (ofBool (a ≠ b))
  | "&" => .ok (bitwise (· && ·) a b)
  | "^" => .ok (bitwise (· != ·) a b)
  | "|" => .ok (bitwise (· || ·) a b)
  | "&&" => .ok (ofBool (a ≠ 0 && b ≠ 0))
  | _ => .ok (ofBool (a ≠ 0 || b ≠ 0))

/-- The operators between two operands, those that bind least first. -/
def levels : List (List String) :=
  [["||"], ["&&"], ["|"], ["^"], ["&"], ["==", "!="], ["<", "<=", ">", ">="], ["<<", ">>"],
    ["+", "-"], ["*", "/", "%"]]

/-- The value of a variable as a number; one that is empty is zero. -/
def valueOf (live : Bool) (vs : Variables) (name : List Char) : Except Mishap Int :=
  let value := (vs.lookup name).getD []
  if !live || value.isEmpty then .ok 0
  else
    match takeSigned value with
    | some (n, rest) => if rest.all isSpace then .ok (bounded n) else .error (.illegal value)
    | none => if value.all isSpace then .ok 0 else .error (.illegal value)

/-- The operator in front of an equals sign. -/
def compound? (o : String) : Option (Option String) :=
  match o with
  | "=" => some none
  | "+=" => some (some "+")
  | "-=" => some (some "-")
  | "*=" => some (some "*")
  | "/=" => some (some "/")
  | "%=" => some (some "%")
  | "<<=" => some (some "<<")
  | ">>=" => some (some ">>")
  | "&=" => some (some "&")
  | "^=" => some (some "^")
  | "|=" => some (some "|")
  | _ => none

/-- Two operands under an operator, if they count. -/
def applied (live : Bool) (o : String) (a b : Int) : Except Mishap Int :=
  if live then apply2 o a b else .ok 0

/-- Whether the operand behind an operator counts, `a` being the one in front of it. -/
def isLiveBehind (live : Bool) (o : String) (a : Int) : Bool :=
  live && !((o = "&&" && a = 0) || (o = "||" && a ≠ 0))

/-- A value, the variables after it, and what is left. -/
abbrev Result := Except Mishap (Int × Variables × List Lexeme)

mutual

/-- An expression with all there is; `fuel` bounds what is read. -/
def assignment : Nat → Bool → Variables → List Lexeme → Result
  | 0, _, _, _ => .error .noPrimary
  | fuel + 1, live, vs, ls => do
    match ls with
    | .name name :: .operator o :: rest =>
      match compound? o with
      | some op =>
        let (b, vs, rest) ← assignment fuel live vs rest
        let v ← match op with
          | none => .ok b
          | some o => applied live o (← valueOf live vs name) b
        return (v, if live then (name, Text.intNumeral v) :: vs else vs, rest)
      | none => conditional fuel live vs ls
    | ls => conditional fuel live vs ls

/-- A choice between two values. -/
def conditional : Nat → Bool → Variables → List Lexeme → Result
  | 0, _, _, _ => .error .noPrimary
  | fuel + 1, live, vs, ls => do
    let (c, vs, rest) ← operation fuel levels live vs ls
    match rest with
    | .operator "?" :: rest =>
      let (a, vs, rest) ← assignment fuel (live && c ≠ 0) vs rest
      match rest with
      | .operator ":" :: rest =>
        let (b, vs, rest) ← conditional fuel (live && c = 0) vs rest
        return (if c ≠ 0 then a else b, vs, rest)
      | _ => .error .noColon
    | rest => return (c, vs, rest)

/-- Operands with the operators of these levels between them. -/
def operation : Nat → List (List String) → Bool → Variables → List Lexeme → Result
  | 0, _, _, _, _ => .error .noPrimary
  | fuel + 1, [], live, vs, ls => unary fuel live vs ls
  | fuel + 1, level :: inner, live, vs, ls => do
    let (a, vs, rest) ← operation fuel inner live vs ls
    further fuel level inner live a vs rest

/-- More operands of a level behind a value. -/
def further : Nat → List String → List (List String) → Bool → Int → Variables → List Lexeme → Result
  | 0, _, _, _, _, _, _ => .error .noPrimary
  | fuel + 1, level, inner, live, a, vs, ls => do
    match ls with
    | .operator o :: rest =>
      if level.contains o then
        let (b, vs, rest) ← operation fuel inner (isLiveBehind live o a) vs rest
        further fuel level inner live (← applied live o a b) vs rest
      else return (a, vs, ls)
    | ls => return (a, vs, ls)

/-- A single operand, with signs in front of it. -/
def unary : Nat → Bool → Variables → List Lexeme → Result
  | 0, _, _, _ => .error .noPrimary
  | fuel + 1, live, vs, ls => do
    match ls with
    | .number n :: rest => return (n, vs, rest)
    | .name name :: rest => return (← valueOf live vs name, vs, rest)
    | .operator "-" :: rest => let (a, vs, rest) ← unary fuel live vs rest; return (wrap (-a), vs, rest)
    | .operator "+" :: rest => unary fuel live vs rest
    | .operator "!" :: rest =>
      let (a, vs, rest) ← unary fuel live vs rest
      return (ofBool (a = 0), vs, rest)
    | .operator "~" :: rest => let (a, vs, rest) ← unary fuel live vs rest; return (-a - 1, vs, rest)
    | .operator "(" :: rest =>
      let (a, vs, rest) ← assignment fuel live vs rest
      match rest with
      | .operator ")" :: rest => return (a, vs, rest)
      | _ => .error .noParenthesis
    | _ => .error .noPrimary

end

/-- The value of an expression, and the variables after it. -/
def evaluate (vs : Variables) (text : List Char) : Except Mishap (Int × Variables) := do
  let ls := lexemes (text.length + 1) text
  let (n, vs, rest) ← assignment (32 * ls.length + 32) true vs ls
  if rest.isEmpty then return (n, vs) else .error .noEnd

end Foreach.Shell.Arithmetic

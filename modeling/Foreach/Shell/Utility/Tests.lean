import Foreach.Shell.Utility.Basic
import Foreach.Text.Blank

/-!
Conditions: `test`.

A word counts as an operator only where it can be one: the operator of a single word does not if it comes
last, or if an operator between two words is next and something follows that.
-/

namespace Foreach.Shell.Utility

/-- Why a condition has no truth value. -/
inductive Puzzle where
  | operator (about : List Char)
  | number (about : List Char)
  | argument (about : List Char)
  | closing

def Puzzle.message : Puzzle → List Char
  | .operator about => about ++ octetsOf ": unexpected operator"
  | .number about => octetsOf "Illegal number: " ++ about
  | .argument about => about ++ octetsOf ": argument expected"
  | .closing => octetsOf "closing paren expected"

/-- What a word may be in a condition. -/
inductive Role where
  | operand
  | single
  | between
  | not
  | and
  | or
  | opening
  | closing
  /-- There is no word. -/
  | none
  deriving DecidableEq

/-- What a word is if it stands where it can be that. -/
def roleOf (w : List Char) : Role :=
  let text := textOf w
  if text = "!" then .not
  else if text = "-a" then .and
  else if text = "-o" then .or
  else if text = "(" then .opening
  else if text = ")" then .closing
  else if ["=", "!=", "<", ">", "-eq", "-ne", "-lt", "-le", "-gt", "-ge", "-nt", "-ot", "-ef"].contains text then
    .between
  else
    match w with
    | ['-', c] => if "rwxefdcbpugkstznhOGLS".toList.contains c then .single else .operand
    | _ => .operand

/-- Whether the word in front of some others is an operand even if it looks like an operator. -/
def isOperandBefore : Arguments → Bool
  | [] => true
  | [_] => false
  | o :: _ => roleOf o = .between

/-- What the first of some words is. -/
def roleOfFirst : Arguments → Role
  | [] => .none
  | w :: rest =>
    match roleOf w with
    | .single => if isOperandBefore rest then .operand else .single
    | .opening => if rest.isEmpty then .operand else .opening
    | r => r

/-- A number with blanks around it. -/
def numberOf (cs : List Char) : Except Puzzle Int :=
  match number? (Text.strip cs) with
  | some n => if -0x8000000000000000 ≤ n ∧ n ≤ 0x7fffffffffffffff then .ok n else .error (.number cs)
  | none => .error (.number cs)

/-- A condition on one word. -/
def unary (m : Machine) (o a : List Char) : Except Puzzle Bool :=
  let node := (found m a).toOption
  let isNull := decide (a = octetsOf "/dev/null")
  let isFile := node.any fun (_, n) => n ≠ .directory
  let isDirectory := node.any fun (_, n) => n = .directory
  match textOf o with
  | "-n" => .ok !a.isEmpty
  | "-z" => .ok a.isEmpty
  | "-e" | "-r" | "-w" | "-O" | "-G" => .ok (isNull || node.isSome)
  | "-f" => .ok isFile
  | "-d" => .ok isDirectory
  | "-s" => .ok (node.any fun (_, n) => n ≠ .file [])
  | "-x" => .ok (isDirectory || node.any fun (p, _) => m.executable.contains p)
  | "-c" => .ok isNull
  | "-t" => (numberOf a).map fun _ => false
  | _ => .ok false

/-- A condition between two words. -/
def binary (m : Machine) (o a b : List Char) : Except Puzzle Bool :=
  let compare (f : Int → Int → Bool) : Except Puzzle Bool := do
    let x ← numberOf a
    let y ← numberOf b
    return f x y
  match textOf o with
  | "=" => .ok (a = b)
  | "!=" => .ok (a ≠ b)
  | "<" => .ok (decide (textOf a < textOf b))
  | ">" => .ok (decide (textOf b < textOf a))
  | "-eq" => compare fun x y => x == y
  | "-ne" => compare fun x y => x != y
  | "-lt" => compare fun x y => x < y
  | "-le" => compare fun x y => x ≤ y
  | "-gt" => compare fun x y => y < x
  | "-ge" => compare fun x y => y ≤ x
  | "-ef" => .ok ((found m a).toOption.isSome && m.placeOf a = m.placeOf b)
  | _ => .ok false

/-- A truth value, and the words from the last one on that it was taken from. -/
abbrev Verdict := Except Puzzle (Bool × Arguments)

mutual

/-- Conditions with `-o` between them, `r` being what the first word is; `fuel` bounds what is read. -/
def anyOf (m : Machine) : Nat → Role → Arguments → Verdict
  | 0, _, ws => .ok (false, ws)
  | fuel + 1, r, ws => do
    let (a, last) ← allOf m fuel r ws
    if roleOfFirst (last.drop 1) = .or then
      let ws := last.drop 2
      let (b, last) ← anyOf m fuel (roleOfFirst ws) ws
      return (a || b, last)
    return (a, last)

/-- Conditions with `-a` between them. -/
def allOf (m : Machine) : Nat → Role → Arguments → Verdict
  | 0, _, ws => .ok (false, ws)
  | fuel + 1, r, ws => do
    let (a, last) ← denied m fuel r ws
    if roleOfFirst (last.drop 1) = .and then
      let ws := last.drop 2
      let (b, last) ← allOf m fuel (roleOfFirst ws) ws
      return (a && b, last)
    return (a, last)

/-- A condition with exclamation marks in front. -/
def denied (m : Machine) : Nat → Role → Arguments → Verdict
  | 0, _, ws => .ok (false, ws)
  | fuel + 1, r, ws =>
    if r = .not then
      let next := roleOfFirst (ws.drop 1)
      (denied m fuel next (if next = .none then ws else ws.drop 1)).map fun (b, last) => (!b, last)
    else oneOf m fuel r ws

/-- A single condition. -/
def oneOf (m : Machine) : Nat → Role → Arguments → Verdict
  | 0, _, ws => .ok (false, ws)
  | fuel + 1, r, ws =>
    match r, ws with
    | .none, ws => .ok (false, ws)
    | .opening, _ :: rest =>
      if roleOfFirst rest = .closing then .ok (false, rest)
      else do
        let (b, last) ← anyOf m fuel (roleOfFirst rest) rest
        if roleOfFirst (last.drop 1) = .closing then return (b, last.drop 1)
        throw .closing
    | .single, o :: rest =>
      match rest with
      | [] => .error (.argument o)
      | a :: _ => (unary m o a).map fun b => (b, rest)
    | _, a :: rest =>
      if roleOfFirst rest = .between then
        match rest with
        | o :: b :: more => (binary m o a b).map fun v => (v, b :: more)
        | o :: [] => .error (.argument o)
        | [] => .ok (!a.isEmpty, ws)
      else .ok (!a.isEmpty, ws)
    | _, [] => .ok (false, [])

end

/-- The truth value of words from a first one that is taken for something. -/
def verdict (m : Machine) (r : Role) (ws : Arguments) : Except Puzzle Bool := do
  let (b, last) ← anyOf m (8 * ws.length + 8) r ws
  match last with
  | a :: _ :: _ => throw (.operator a)
  | _ => return b

/-- The truth value of words. Few words are taken apart by their number: of three, an operator in the middle
comes first; a pair of parentheses or an exclamation mark in front of three or four comes next. -/
def holds (m : Machine) : Nat → Arguments → Except Puzzle Bool
  | 0, _ => .ok false
  | fuel + 1, ws =>
    let plain := verdict m (roleOfFirst ws) ws
    match ws with
    | [] => .ok false
    | [_, o, _] => if roleOf o = .between then verdict m .operand ws else special fuel ws plain
    | [_, _, _, _] => special fuel ws plain
    | _ => plain
where
  special (fuel : Nat) (ws : Arguments) (plain : Except Puzzle Bool) : Except Puzzle Bool :=
    if ws.head? = some ['('] ∧ ws.getLast? = some [')'] then
      let inner := ws.dropLast.drop 1
      verdict m (roleOfFirst inner) inner
    else if ws.head? = some ['!'] then (holds m fuel (ws.drop 1)).map (!·)
    else plain

/-- Sets the status to the truth value of words. -/
def test : Utility := fun args m =>
  match holds m (args.length + 1) args with
  | .ok b => m.finish (if b then 0 else 1)
  | .error e => m.protest 2 e.message

def bracket : Utility := fun args m =>
  if (args.getLast?.getD []).head? = some ']' then test args.dropLast m
  else m.protest 2 (octetsOf "missing ]")

end Foreach.Shell.Utility

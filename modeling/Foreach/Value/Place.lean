import Foreach.Value.Mapping

/-!
Places inside a value.

A way into a value is a list of values: keys where it leads through a mapping, indexes where it leads
through a list or tuple. A negative index counts from the end. What is at the end of a way can be
replaced or taken out if it is in a mapping or a list; a tuple keeps its length and its elements, though
what is inside an element may change.
-/

namespace Foreach.Value

/-- The position that an index denotes in a sequence of `length` elements. -/
def position? (length : Nat) (index : Value) : Option Nat :=
  let n? : Option Int := match index with
    | .int n => some n
    | .bool b => some b.toNat
    | _ => none
  n?.bind fun n =>
    if 0 ≤ n ∧ n < length then some n.toNat
    else if n < 0 ∧ -(length : Int) ≤ n then some (n + length).toNat
    else none

/-- What happens at the end of a way. -/
inductive Edit where
  | assign (v : Value)
  | delete

/-- Carries out an edit on one element of a container. -/
def edit (e : Edit) (container last : Value) : Option Value :=
  match container with
  | .map es =>
    last.toKey?.bind fun key =>
      match e with
      | .assign v => some (.map (Mapping.insert es key v))
      | .delete => if Mapping.contains es key then some (.map (Mapping.erase es key)) else none
  | .list vs =>
    (position? vs.length last).map fun i =>
      match e with
      | .assign v => .list (vs.set i v)
      | .delete => .list (vs.eraseIdx i)
  | _ => none

/-- Replaces one element of a container by what `f` makes of it. -/
def within (f : Value → Option Value) (container step : Value) : Option Value :=
  match container with
  | .map es =>
    step.toKey?.bind fun key => (Mapping.get? es key).bind fun child =>
      (f child).map fun child => .map (Mapping.insert es key child)
  | .list vs =>
    (position? vs.length step).bind fun i => vs[i]?.bind fun child =>
      (f child).map fun child => .list (vs.set i child)
  | .tuple vs =>
    (position? vs.length step).bind fun i => vs[i]?.bind fun child =>
      (f child).map fun child => .tuple (vs.set i child)
  | _ => none

/-- Carries out an edit at the end of a way that has at least one step. -/
def editAt (e : Edit) : List Value → Value → Option Value
  | [], _ => none
  | [last], v => edit e v last
  | step :: next :: rest, v => within (editAt e (next :: rest)) v step

end Foreach.Value

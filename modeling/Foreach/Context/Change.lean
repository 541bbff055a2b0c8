import Foreach.Context.Basic
import Foreach.Fault
import Foreach.Value.Place

/-!
Changes to a context, as data.

A change that cannot be followed, because a key or an index is missing, fails and changes nothing.
-/

namespace Foreach.Context

/-- A change to a context. -/
inductive Change where
  | assign (way : List Value) (v : Value)
  | delete (way : List Value)
  | addMessage (role content : Value) (extra : Mapping)
  | setMessage (index key v : Value)
  /-- New variables and no messages. -/
  | rebind (vars : Value)
  | reset

namespace Change

def unfollowable : Fault := .runtime "bad step"

/-- The context with other variables. -/
def onVariables (c : Context) (f : Value → Option Value) : Option Context :=
  match f (.map c.vars) with
  | some (.map es) => some { c with vars := es }
  | _ => none

/-- The context with one message edited. -/
def onMessage (c : Context) (index : Value) (f : Value → Option Value) : Option Context :=
  (Value.position? c.messages.length index).bind fun i => c.messages[i]?.bind fun m =>
    match f (.map m) with
    | some (.map es) => some { c with messages := c.messages.set i es }
    | _ => none

/-- The names that a message already has a place for, and so are not extra. -/
def taken : List String := ["role", "content", "self"]

/-- Whether every key of a mapping is a text and none of them is taken. -/
def isExtra (extra : Mapping) : Bool :=
  extra.all fun (k, _) =>
    match k with
    | .text s => !taken.contains s
    | _ => false

def applied? (c : Context) : Change → Option Context
  | .assign way v => onVariables c (Value.editAt (.assign v) way)
  | .delete way => onVariables c (Value.editAt .delete way)
  | .addMessage role content extra =>
    if isExtra extra then some (c.addMessage role content extra) else none
  | .setMessage index key v => onMessage c index fun m => Value.edit (.assign v) m key
  | .rebind (.map es) => some ⟨es, []⟩
  | .rebind _ => none
  | .reset => some .empty

end Change

/-- The context after a change. -/
def change (c : Context) (ch : Change) : Except Fault Context :=
  (ch.applied? c).elim (.error Change.unfollowable) .ok

theorem change_eq_error {c : Context} {ch : Change} {f : Fault} (h : c.change ch = .error f) :
    f = Change.unfollowable := by
  unfold change at h
  cases happlied : ch.applied? c with
  | none =>
    rw [happlied] at h
    exact (Except.error.inj h).symm
  | some d =>
    rw [happlied] at h
    cases h

end Foreach.Context

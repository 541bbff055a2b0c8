import Foreach.Value.Mapping

/-!
The context that providers and actions share: variables, and the messages exchanged so far.

A checkpoint is the whole of a context at one moment, so restoring it gives back exactly that context.
-/

namespace Foreach

/-- Variables and messages. -/
structure Context where
  vars : Mapping
  messages : List Mapping

/-- A context as it was at one moment. -/
structure Checkpoint where
  vars : Mapping
  messages : List Mapping

namespace Context

def empty : Context := ⟨[], []⟩

def snapshot (c : Context) : Checkpoint := ⟨c.vars, c.messages⟩

/-- The context that a checkpoint was taken of. -/
def restore (p : Checkpoint) : Context := ⟨p.vars, p.messages⟩

@[simp] theorem restore_snapshot (c : Context) : restore c.snapshot = c := rfl

/-- Puts a message at the end. -/
def addMessage (c : Context) (role content : Value) (extra : Mapping) : Context :=
  { c with messages :=
      c.messages ++ [Mapping.update [(.text "role", role), (.text "content", content)] extra] }

/-- The context as one value. -/
def state (c : Context) : Value :=
  .record [("variables", .map c.vars), ("messages", .list (c.messages.map .map))]

end Context
end Foreach

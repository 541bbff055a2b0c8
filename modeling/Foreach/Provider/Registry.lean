import Foreach.Fault
import Foreach.Notice
import Foreach.Text.Half
import Foreach.Value.Basic

/-!
The registry: which provider makes the items for a type.

The latest registration of a type counts. Registering a provider again under its own type is no
replacement.
-/

namespace Foreach

/-- Providers by type. -/
structure Registry (α : Type) where
  entries : List (String × α)

namespace Registry

variable {α : Type}

def empty : Registry α := ⟨[]⟩

def get? (r : Registry α) (type : String) : Option α := r.entries.lookup type

def has (r : Registry α) (type : String) : Bool := (r.get? type).isSome

/-- Whether there is a provider for a type given as a key; types are texts. -/
def hasKey (r : Registry α) : Key → Bool
  | .text type => r.has type
  | _ => false

theorem mem_of_lookup {entries : List (String × α)} {type : String} {p : α}
    (h : entries.lookup type = some p) : (type, p) ∈ entries := by
  induction entries with
  | nil => simp at h
  | cons entry rest ih =>
    obtain ⟨t, q⟩ := entry
    rw [List.lookup_cons] at h
    cases ht : type == t with
    | true => simp_all
    | false => exact List.mem_cons_of_mem _ (ih (by simpa [ht] using h))

theorem mem_of_get? {r : Registry α} {type : String} {p : α} (h : r.get? type = some p) :
    (type, p) ∈ r.entries := mem_of_lookup h

/-- The registry with each provider seen as something else. -/
def map {β : Type} (f : α → β) (r : Registry α) : Registry β :=
  ⟨r.entries.map fun (type, p) => (type, f p)⟩

/-- The entries with one put in place of another of its type. -/
def put : List (String × α) → String → α → List (String × α)
  | [], type, p => [(type, p)]
  | (t, q) :: rest, type, p => if t = type then (t, p) :: rest else (t, q) :: put rest type p

/-- Registers a provider for a type. Another provider of the type is replaced, with a notice, or, if
that is not wanted, kept, with a failure. What is registered then comes with the answer, either way. -/
def register [BEq α] (r : Registry α) (type : String) (p : α) (replace : Bool) :
    Except Fault (List Notice) × Registry α :=
  let registered : Registry α := ⟨put r.entries type p⟩
  match r.get? type with
  | none => (.ok [], registered)
  | some q =>
    if q == p then (.ok [], registered)
    else if replace then (.ok [.replacedProvider type], registered)
    else (.error (.conflict type), r)

/-- Takes a type out; tells whether it was there. -/
def unregister (r : Registry α) (type : String) : Registry α × Bool :=
  (⟨r.entries.filter fun (t, _) => t != type⟩, r.has type)

/-- The entries in the order of their types. -/
def items (r : Registry α) : List (String × α) :=
  r.entries.mergeSort fun (a, _) (b, _) => Text.precedes a b

def types (r : Registry α) : List String := r.items.map (·.1)

end Registry
end Foreach

import Foreach.Value.Basic

/-!
Operations on mappings.

An entry keeps the place and the key of its first insertion; inserting an equal key again replaces the
value alone.
-/

namespace Foreach.Mapping

variable {α : Type}

/-- The value under a key. -/
def get? (m : List (Key × α)) (key : Key) : Option α :=
  (m.find? fun (k, _) => k.same key).map (·.2)

/-- The value under a text key. -/
def getText? (m : List (Key × α)) (name : String) : Option α := get? m (.text name)

def contains (m : List (Key × α)) (key : Key) : Bool := m.any fun (k, _) => k.same key

/-- Puts a value under a key, in the key's place if it has one and at the end otherwise. -/
def insert : List (Key × α) → Key → α → List (Key × α)
  | [], key, v => [(key, v)]
  | (k, w) :: rest, key, v =>
    if k.same key then (k, v) :: rest else (k, w) :: insert rest key v

def setText (m : List (Key × α)) (name : String) (v : α) : List (Key × α) := insert m (.text name) v

/-- The mapping without a key. -/
def erase (m : List (Key × α)) (key : Key) : List (Key × α) := m.filter fun (k, _) => !k.same key

/-- Each entry of the second mapping inserted into the first. -/
def update (m entries : List (Key × α)) : List (Key × α) :=
  entries.foldl (fun acc (k, v) => insert acc k v) m

/-- The mapping that a sequence of entries builds: of equal keys the first object and place stay, and
the last value. -/
def ofEntries (entries : List (Key × α)) : List (Key × α) := update [] entries

end Foreach.Mapping

import Foreach.Json.Printer
import Foreach.Proofs.Value.Mapping
import Foreach.Proofs.Value.Nested

/-!
Values without a document.

Printing fails only at a key. So a value has no document just if a mapping somewhere in it has a key that
JSON has no text for.
-/

namespace Foreach

/-- A key that JSON has no text for. -/
def Key.IsUnwritable : Key → Prop
  | .bytes _ | .date _ | .moment _ | .tuple _ => True
  | _ => False

/-- A mapping in the value, at any depth, has a key that JSON has no text for. -/
inductive Value.HoldsUnwritable : Value → Prop
  | key {es : List (Key × Value)} {e : Key × Value} (hmem : e ∈ es) (hkey : e.1.IsUnwritable) :
      HoldsUnwritable (.map es)
  | entry {es : List (Key × Value)} {e : Key × Value} (hmem : e ∈ es) (hvalue : HoldsUnwritable e.2) :
      HoldsUnwritable (.map es)
  | item {vs : List Value} {v : Value} (hmem : v ∈ vs) (hvalue : HoldsUnwritable v) :
      HoldsUnwritable (.list vs)
  | part {vs : List Value} {v : Value} (hmem : v ∈ vs) (hvalue : HoldsUnwritable v) :
      HoldsUnwritable (.tuple vs)

/-- There is a mapping with such a key inside the value, or the value is one. -/
theorem Value.holdsUnwritable_iff {v : Value} : v.HoldsUnwritable ↔
    ∃ es k, (Value.map es).Inside v ∧ k ∈ Mapping.keys es ∧ k.IsUnwritable := by
  constructor
  · intro h
    induction h with
    | @key es e hmem hkey => exact ⟨es, e.1, .self, List.mem_map_of_mem hmem, hkey⟩
    | entry hmem _ ih =>
      obtain ⟨es, k, hinside, hkey⟩ := ih
      exact ⟨es, k, .entry hmem hinside, hkey⟩
    | item hmem _ ih =>
      obtain ⟨es, k, hinside, hkey⟩ := ih
      exact ⟨es, k, .item hmem hinside, hkey⟩
    | part hmem _ ih =>
      obtain ⟨es, k, hinside, hkey⟩ := ih
      exact ⟨es, k, .part hmem hinside, hkey⟩
  · rintro ⟨es, k, hinside, hmem, hkey⟩
    obtain ⟨e, he, rfl⟩ := List.mem_map.1 hmem
    induction hinside with
    | self => exact .key he hkey
    | item hmem _ ih => exact .item hmem ih
    | part hmem _ ih => exact .part hmem ih
    | entry hmem _ ih => exact .entry hmem ih

namespace Json

theorem keyText_eq_none_iff {k : Key} : keyText k = none ↔ k.IsUnwritable := by
  cases k <;> simp [keyText, Key.IsUnwritable]

theorem printAll_eq_none_iff {l : Layout} {depth : Nat} {vs : List Value} :
    printAll l depth vs = none ↔ ∃ v ∈ vs, print l depth v = none := by
  induction vs with
  | nil => simp [printAll]
  | cons v vs ih =>
    simp only [printAll, List.mem_cons, exists_eq_or_imp, ← ih]
    cases print l depth v <;> cases printAll l depth vs <;> simp

theorem printEntries_eq_none_iff {l : Layout} {depth : Nat} {es : List (Key × Value)} :
    printEntries l depth es = none ↔ ∃ e ∈ es, e.1.IsUnwritable ∨ print l depth e.2 = none := by
  induction es with
  | nil => simp [printEntries]
  | cons e es ih =>
    simp only [printEntries, List.mem_cons, exists_eq_or_imp, ← ih]
    rw [← keyText_eq_none_iff]
    cases keyText e.1 <;> cases print l depth e.2 <;> cases printEntries l depth es <;> simp

/-- A value has no document just if it holds a key without a text. -/
theorem print_eq_none_iff {l : Layout} {depth : Nat} {v : Value} :
    print l depth v = none ↔ v.HoldsUnwritable := by
  constructor
  · intro h
    induction v using Value.nested generalizing depth with
    | list vs ih =>
      obtain ⟨v, hv, hnone⟩ := printAll_eq_none_iff.1 (Option.map_eq_none_iff.1 h)
      exact .item hv (ih v hv hnone)
    | tuple vs ih =>
      obtain ⟨v, hv, hnone⟩ := printAll_eq_none_iff.1 (Option.map_eq_none_iff.1 h)
      exact .part hv (ih v hv hnone)
    | map es ih =>
      obtain ⟨e, he, hkey | hnone⟩ := printEntries_eq_none_iff.1 (Option.map_eq_none_iff.1 h)
      · exact .key he hkey
      · exact .entry he (ih e he hnone)
    | _ => cases h
  · intro h
    induction h generalizing depth with
    | key hmem hkey =>
      exact Option.map_eq_none_iff.2 (printEntries_eq_none_iff.2 ⟨_, hmem, .inl hkey⟩)
    | entry hmem _ ih =>
      exact Option.map_eq_none_iff.2 (printEntries_eq_none_iff.2 ⟨_, hmem, .inr ih⟩)
    | item hmem _ ih =>
      exact Option.map_eq_none_iff.2 (printAll_eq_none_iff.2 ⟨_, hmem, ih⟩)
    | part hmem _ ih =>
      exact Option.map_eq_none_iff.2 (printAll_eq_none_iff.2 ⟨_, hmem, ih⟩)

end Json
end Foreach

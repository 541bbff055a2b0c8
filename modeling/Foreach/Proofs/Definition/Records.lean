import Foreach.Proofs.Definition.Loading
import Foreach.Proofs.Holdings

/-!
What a list of records makes of a store.

The records that hold definitions are gone through in order, and the others are passed over with one notice
each. A name comes in at the place of its first definition and keeps the last one. What the store held before
counts for nothing.
-/

namespace Foreach

namespace Store

variable {d : Definition} {ds : List Definition} {document : Value} {records : List Value}

/-- A document lists these records: under its name for them, or none at all if it has nothing there or is
itself nothing. -/
inductive Lists : Value → List Value → Prop
  | listed {es : Mapping} {records : List Value} (hlist : Mapping.getText? es "iterables" = some (.list records)) :
      Lists (.map es) records
  | vacant {es : Mapping} (hvacant : ((Mapping.getText? es "iterables").getD .null).isTruthy = false) :
      Lists (.map es) []
  | blank {document : Value} (hblank : document.isTruthy = false) : Lists document []

theorem recordsOf_of_lists (h : Lists document records) : recordsOf document = .ok records := by
  cases h with
  | @listed es records hlist =>
    rw [recordsOf_map, hlist, Option.getD_some]
    cases records <;> rfl
  | @vacant es hvacant =>
    rw [recordsOf_map, hvacant]
    rfl
  | blank hblank => simp only [recordsOf, hblank, Bool.not_false, if_true]

/-- A record that holds no definition. -/
def isInvalid (record : Value) : Bool := (Definition.check record).toOption.isNone

/-- There is one notice for each record that is passed over. -/
theorem loadAll_snd (s : Store) (records : List Value) :
    (loadAll s records).2 = List.replicate (records.countP isInvalid) .malformedRecord := by
  induction records generalizing s with
  | nil => rfl
  | cons r records ih =>
    rw [loadAll, load]
    cases hcheck : Definition.check r with
    | error issues =>
      have hinvalid : isInvalid r = true := by rw [isInvalid, hcheck]; rfl
      rw [List.countP_cons_of_pos hinvalid, List.replicate_succ]
      exact congrArg _ (ih s)
    | ok d =>
      have hvalid : isInvalid r = false := by rw [isInvalid, hcheck]; rfl
      rw [List.countP_cons_of_neg (by simp [hvalid])]
      exact ih _

/-- The names are those of the definitions, each at the place where it first comes up. -/
theorem names_eq_eraseDups (ds : List Definition) :
    (ofDefinitions ds).names = (ds.map (·.name)).eraseDups := by
  induction ds using List.reverseRecOn with
  | nil => rfl
  | append_singleton ds d ih =>
    have hmem : d.name ∈ (ofDefinitions ds).names ↔ d.name ∈ ds.map (·.name) := mem_names_ofDefinitions ds
    rw [ofDefinitions_concat, (named_ofDefinitions ds).names_enter, List.map_append]
    by_cases hd : d.name ∈ ds.map (·.name)
    · rw [if_pos (hmem.2 hd), ih]
      exact (Mapping.eraseDups_concat_of_mem hd).symm
    · rw [if_neg (mt hmem.1 hd), ih]
      exact (Mapping.eraseDups_concat_of_notMem hd).symm

/-- Under each name is the last definition that has it. -/
theorem list_eq_filterMap (ds : List Definition) :
    (ofDefinitions ds).list = (ds.map (·.name)).eraseDups.filterMap (lastNamed ds) := by
  have hlast : (ofDefinitions ds).list.filterMap (lastNamed ds ∘ (·.name)) = (ofDefinitions ds).list.filterMap some :=
    List.filterMap_congr fun d => lastNamed_of_mem
  rw [← names_eq_eraseDups, names, List.filterMap_map, hlast, List.filterMap_some]

end Store

namespace Holdings

variable {σ : Type}

open Store (Lists validOf lastNamed isInvalid)

/-- A store keeps exactly the valid records of a document that it is read from, whatever it held before. Each
name that a valid record has comes up once, in the order of the first valid records, with what the last valid
record has of it; there is one notice for each record that is not valid, and no other; and all other stores
stay as they are. -/
theorem deserialize_keeps_valid (h : Holdings σ) (number : Nat) {document : Value} {records : List Value}
    (hlists : Lists document records) :
    let after := h.deserialize number document
    after.1 = .ok (List.replicate (records.countP isInvalid) .malformedRecord) ∧
      (after.2.store number).names = ((validOf records).map (·.name)).eraseDups ∧
      (after.2.store number).list = (after.2.store number).names.filterMap (lastNamed (validOf records)) ∧
      ∀ other, other ≠ number → after.2.store other = h.store other := by
  have hdeserialize : (h.store number).deserialize document =
      (.ok (List.replicate (records.countP isInvalid) .malformedRecord), .ofDefinitions (validOf records)) := by
    rw [Store.deserialize, Store.recordsOf_of_lists hlists]
    exact Prod.ext (congrArg Except.ok (Store.loadAll_snd .empty records)) (Store.loadAll_fst .empty records)
  intro after
  have hafter : after = (.ok (List.replicate (records.countP isInvalid) .malformedRecord),
      h.setStore number (.ofDefinitions (validOf records))) := by
    simp only [after, deserialize, hdeserialize]
  have hstore : after.2.store number = .ofDefinitions (validOf records) := by
    rw [hafter]
    exact congrArg BoundStore.store (setStore_self _)
  refine ⟨congrArg Prod.fst hafter, ?_, ?_, fun other hother => ?_⟩
  · rw [hstore, Store.names_eq_eraseDups]
  · rw [hstore, Store.names_eq_eraseDups, Store.list_eq_filterMap]
  · rw [hafter]
    exact congrArg BoundStore.store (setStore_of_ne _ hother)

/-- The record of a definition that was made and last changed at the start of time. -/
def plainRecord (name type : String) : Value :=
  .record [("name", .text name), ("type", .text type), ("created_at", .int 0), ("updated_at", .int 0)]

/-- Records of which two hold nothing, and two are of one name. -/
def mixedRecords : List Value :=
  [.int 5, plainRecord "words" "list", plainRecord "numbers" "list", .record [("name", .text "x")],
    plainRecord "words" "range"]

/-- The definition of letters that the store held is gone, and words stay in front with their last type. -/
theorem deserialize_keeps_valid_mixed :
    Lists (.record [("iterables", .list mixedRecords)]) mixedRecords ∧
      ∃ after, after = lettersHoldings.deserialize 0 (.record [("iterables", .list mixedRecords)]) ∧
        (lettersHoldings.store 0).names = ["letters"] ∧
        after.1 = .ok [.malformedRecord, .malformedRecord] ∧
        (after.2.store 0).list.map (fun d => (d.name, d.type)) = [("words", "range"), ("numbers", "list")] := by
  have hlists : Lists (.record [("iterables", .list mixedRecords)]) mixedRecords := .listed rfl
  obtain ⟨hnotices, hnames, hlist, -⟩ := deserialize_keeps_valid lettersHoldings 0 hlists
  have hinvalid : mixedRecords.countP isInvalid = 2 := by decide +kernel
  have htypes : (((validOf mixedRecords).map (·.name)).eraseDups.filterMap (lastNamed (validOf mixedRecords))).map
      (fun d => (d.name, d.type)) = [("words", "range"), ("numbers", "list")] := by decide +kernel
  refine ⟨hlists, _, rfl, rfl, ?_, ?_⟩
  · rw [hnotices, hinvalid]
    rfl
  · rw [hlist, hnames, htypes]

end Holdings
end Foreach

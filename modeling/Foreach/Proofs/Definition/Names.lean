import Foreach.Proofs.Definition.Store

/-!
The names of a store whose definitions stand under their own.

All look-ups are told by its list of definitions, in which no name comes up twice. A definition that is
entered takes the place of its name if that is there, and comes last otherwise; all other names keep their
definitions.
-/

namespace Foreach

/-- Only a text is one key with a text. -/
theorem Key.text_same_iff {name : String} {key : Key} : (Key.text name).same key = true ↔ key = .text name := by
  cases key with
  | text other =>
    rw [Mapping.same_text, beq_iff_eq, Key.text.injEq]
    exact eq_comm
  | _ => simp [Key.same]

namespace Store

variable {s t : Store} {d e : Definition} {name : String}

def names (s : Store) : List String := s.list.map (·.name)

theorem mem_list {s : Store} {d : Definition} : d ∈ s.list ↔ ∃ key, (key, d) ∈ s.entries := by
  simp [list]

theorem mem_names (h : d ∈ s.list) : d.name ∈ s.names := List.mem_map_of_mem h

theorem Named.mem_list_iff (hs : s.Named) : d ∈ s.list ↔ (Key.text d.name, d) ∈ s.entries := by
  refine mem_list.trans ⟨?_, fun h => ⟨_, h⟩⟩
  rintro ⟨key, hd⟩
  obtain rfl : key = .text d.name := hs.names _ hd
  exact hd

theorem Named.same_iff (hs : s.Named) {entry : Key × Definition} (h : entry ∈ s.entries) :
    entry.1.same (.text name) = true ↔ entry.2.name = name := by
  rw [hs.names entry h, Mapping.same_text, beq_iff_eq]

theorem Named.keys_eq (hs : s.Named) : Mapping.keys s.entries = s.names.map .text := by
  simp only [Mapping.keys, Store.names, Store.list, List.map_map]
  exact List.map_congr_left fun e he => hs.names e he

theorem Named.names_nodup (hs : s.Named) : s.names.Nodup := by
  have hdistinct := hs.distinct
  rw [Mapping.Distinct, hs.keys_eq, List.pairwise_map] at hdistinct
  exact hdistinct.imp fun hne => by rwa [Mapping.same_text, beq_eq_false_iff_ne] at hne

theorem Named.eq_of_name (hs : s.Named) (hd : d ∈ s.list) (he : e ∈ s.list) (h : d.name = e.name) : d = e :=
  List.inj_on_of_nodup_map hs.names_nodup hd he h

theorem Named.contains_iff (hs : s.Named) : s.contains (.text name) = true ↔ name ∈ s.names := by
  constructor
  · intro h
    obtain ⟨e, he, rfl⟩ := hs.name_of_contains h
    exact List.mem_map_of_mem (List.mem_map_of_mem he)
  · intro hname
    obtain ⟨d, hd, rfl⟩ := List.mem_map.1 hname
    have hmem := hs.mem_list_iff.1 hd
    exact List.any_eq_true.2 ⟨_, hmem, (hs.same_iff hmem).2 rfl⟩

theorem contains_eq_isSome (s : Store) (key : Key) : s.contains key = (s.get? key).isSome := by
  rw [contains, Mapping.contains, get?, Mapping.get?, Option.isSome_map, List.isSome_find?]

theorem Named.of_get? (hs : s.Named) (h : s.get? (.text name) = some d) : d ∈ s.list ∧ d.name = name := by
  rw [Store.get?, Mapping.get?, Option.map_eq_some_iff] at h
  obtain ⟨e, hfind, rfl⟩ := h
  have hsame := List.find?_some hfind
  have he := List.mem_of_find?_eq_some hfind
  exact ⟨List.mem_map_of_mem he, (hs.same_iff he).1 hsame⟩

/-- Look-up finds what the list has under the name. -/
theorem Named.get?_eq_some_iff (hs : s.Named) : s.get? (.text name) = some d ↔ d ∈ s.list ∧ d.name = name := by
  refine ⟨hs.of_get?, ?_⟩
  rintro ⟨hd, rfl⟩
  have hfound := hs.contains_iff.2 (mem_names hd)
  rw [contains_eq_isSome] at hfound
  obtain ⟨e, he⟩ := Option.isSome_iff_exists.1 hfound
  obtain ⟨hmem, hname⟩ := hs.of_get? he
  rw [he, hs.eq_of_name hmem hd hname]

theorem Named.get?_eq_none_iff (hs : s.Named) : s.get? (.text name) = none ↔ name ∉ s.names := by
  rw [← hs.contains_iff, contains_eq_isSome, Bool.not_eq_true, Option.isSome_eq_false_iff, Option.isNone_iff_eq_none]

/-- Only texts are names. -/
theorem Named.contains_key_iff (hs : s.Named) {key : Key} :
    s.contains key = true ↔ ∃ name, key = .text name ∧ name ∈ s.names := by
  constructor
  · intro h
    obtain ⟨e, he, hsame⟩ := List.any_eq_true.1 h
    have hkey : (Key.text e.2.name).same key = true := hs.names e he ▸ hsame
    exact ⟨e.2.name, Key.text_same_iff.1 hkey, List.mem_map_of_mem (List.mem_map_of_mem he)⟩
  · rintro ⟨name, rfl, hname⟩
    exact hs.contains_iff.2 hname

theorem require_eq_ok_iff {key : Key} : s.require key = .ok d ↔ s.get? key = some d := by
  rw [require]
  cases s.get? key <;> simp

theorem size_eq (s : Store) : s.size = s.list.length := by
  rw [size, list, List.length_map]

/-! ### A definition that is entered -/

theorem Named.names_enter (hs : s.Named) (d : Definition) :
    (s.enter d).names = if d.name ∈ s.names then s.names else s.names ++ [d.name] := by
  have hinjective : Function.Injective (List.map Key.text) :=
    List.map_injective_iff.2 fun _ _ h => Key.text.inj h
  refine hinjective ?_
  rw [← (hs.enter d).keys_eq]
  by_cases hname : d.name ∈ s.names
  · rw [if_pos hname, ← hs.keys_eq]
    exact Mapping.keys_insert (hs.contains_iff.2 hname) d
  · have habsent : Mapping.contains s.entries (.text d.name) = false :=
      Bool.eq_false_iff.2 fun h => hname (hs.contains_iff.1 h)
    rw [if_neg hname, List.map_append, ← hs.keys_eq, Store.enter, Mapping.insert_of_absent habsent]
    simp [Mapping.keys]

theorem Named.mem_names_enter (hs : s.Named) : name ∈ (s.enter d).names ↔ name = d.name ∨ name ∈ s.names := by
  rw [hs.names_enter]
  split
  next hold => exact ⟨.inr, fun h => h.elim (fun heq => heq ▸ hold) id⟩
  next => rw [List.mem_append, List.mem_singleton, or_comm]

theorem mem_enter (s : Store) (d : Definition) : d ∈ (s.enter d).list := mem_list.2 Mapping.exists_mem_insert

theorem Named.get?_enter_self (hs : s.Named) (d : Definition) : (s.enter d).get? (.text d.name) = some d :=
  (hs.enter d).get?_eq_some_iff.2 ⟨mem_enter s d, rfl⟩

theorem Named.of_mem_enter (hs : s.Named) (h : e ∈ (s.enter d).list) : e = d ∨ e ∈ s.list ∧ e.name ≠ d.name := by
  by_cases hname : e.name = d.name
  · exact .inl ((hs.enter d).eq_of_name h (mem_enter s d) hname)
  · obtain ⟨key, hmem⟩ := mem_list.1 h
    rcases Mapping.mem_insert hmem with hold | ⟨rfl, -⟩
    · exact .inr ⟨mem_list.2 ⟨key, hold⟩, hname⟩
    · exact .inl rfl

theorem Named.get?_enter_of_ne (hs : s.Named) (hne : name ≠ d.name) :
    (s.enter d).get? (.text name) = s.get? (.text name) := by
  refine Option.ext fun e => ?_
  rw [(hs.enter d).get?_eq_some_iff, hs.get?_eq_some_iff]
  constructor
  · rintro ⟨he, rfl⟩
    rcases hs.of_mem_enter he with rfl | ⟨hmem, -⟩
    · exact absurd rfl hne
    · exact ⟨hmem, rfl⟩
  · rintro ⟨he, rfl⟩
    obtain ⟨c, hc, hname⟩ := List.mem_map.1 (hs.mem_names_enter.2 (.inr (mem_names he)))
    rcases hs.of_mem_enter hc with rfl | ⟨hmem, -⟩
    · exact absurd hname.symm hne
    · rw [← hs.eq_of_name hmem he hname]
      exact ⟨hc, rfl⟩

/-! ### A name that is taken out -/

theorem Named.mem_delete (hs : s.Named) {key : Key} : d ∈ (s.delete key).1.list ↔ d ∈ s.list ∧ key ≠ .text d.name := by
  rw [(hs.delete key).mem_list_iff, hs.mem_list_iff, Store.delete, Mapping.erase, List.mem_filter]
  simp [← Key.text_same_iff]

theorem Named.mem_names_delete (hs : s.Named) {key : Key} :
    name ∈ (s.delete key).1.names ↔ name ∈ s.names ∧ key ≠ .text name := by
  simp only [Store.names, List.mem_map, hs.mem_delete]
  constructor
  · rintro ⟨d, ⟨hd, hne⟩, rfl⟩
    exact ⟨⟨d, hd, rfl⟩, hne⟩
  · rintro ⟨⟨d, hd, rfl⟩, hne⟩
    exact ⟨d, ⟨hd, hne⟩, rfl⟩

theorem names_delete (s : Store) (key : Key) : (s.delete key).1.names.Sublist s.names :=
  (List.filter_sublist.map _).map _

theorem Named.get?_delete_of_ne (hs : s.Named) {key : Key} (hne : key ≠ .text name) :
    (s.delete key).1.get? (.text name) = s.get? (.text name) := by
  refine Option.ext fun e => ?_
  rw [(hs.delete key).get?_eq_some_iff, hs.get?_eq_some_iff, hs.mem_delete]
  constructor
  · rintro ⟨⟨he, -⟩, rfl⟩
    exact ⟨he, rfl⟩
  · rintro ⟨he, rfl⟩
    exact ⟨⟨he, hne⟩, rfl⟩

/-! ### A store that is read from a document -/

/-- The definitions that the records of a document hold, in order. -/
def definitionsOf (document : Value) : List Definition :=
  match recordsOf document with
  | .error _ => []
  | .ok records => records.filterMap fun r => (Definition.check r).toOption

/-- The last of the definitions that has a name. -/
def lastNamed (ds : List Definition) (name : String) : Option Definition :=
  ds.reverse.find? fun d => d.name = name

theorem lastNamed_concat (ds : List Definition) (d : Definition) (name : String) :
    lastNamed (ds ++ [d]) name = if d.name = name then some d else lastNamed ds name := by
  rw [lastNamed, List.reverse_concat, List.find?_cons]
  by_cases h : d.name = name
  · rw [decide_eq_true h, if_pos h]
  · rw [decide_eq_false h, if_neg h, lastNamed]

/-- The store that definitions make, entered one after another. -/
def ofDefinitions (ds : List Definition) : Store := ds.foldl enter .empty

theorem ofDefinitions_concat (ds : List Definition) (d : Definition) :
    ofDefinitions (ds ++ [d]) = (ofDefinitions ds).enter d :=
  List.foldl_concat ..

theorem deserialize_eq_ok {document : Value} {notices : List Notice} (h : s.deserialize document = (.ok notices, t)) :
    t = ofDefinitions (definitionsOf document) := by
  unfold deserialize at h
  split at h
  next => cases h
  next records hrecords =>
    cases h
    rw [ofDefinitions, definitionsOf, hrecords]
    exact loadAll_fst .empty records

theorem named_ofDefinitions (ds : List Definition) : (ofDefinitions ds).Named := by
  induction ds using List.reverseRecOn with
  | nil => exact named_empty
  | append_singleton ds d ih =>
    rw [ofDefinitions_concat]
    exact ih.enter d

theorem mem_names_ofDefinitions (ds : List Definition) :
    name ∈ (ofDefinitions ds).names ↔ name ∈ ds.map (·.name) := by
  induction ds using List.reverseRecOn with
  | nil => rfl
  | append_singleton ds d ih =>
    rw [ofDefinitions_concat, (named_ofDefinitions ds).mem_names_enter, ih, List.map_append, List.mem_append, or_comm]
    exact or_congr_right List.mem_singleton.symm

/-- Of two definitions with one name the store has the later one. -/
theorem lastNamed_of_mem {ds : List Definition} (h : d ∈ (ofDefinitions ds).list) :
    lastNamed ds d.name = some d := by
  induction ds using List.reverseRecOn with
  | nil => cases h
  | append_singleton ds e ih =>
    rw [ofDefinitions_concat] at h
    rw [lastNamed_concat]
    rcases (named_ofDefinitions ds).of_mem_enter h with rfl | ⟨hd, hne⟩
    · exact if_pos rfl
    · rw [if_neg hne.symm, ih hd]

/-- The names stand in the order in which the definitions first have them. -/
theorem names_ofDefinitions (ds : List Definition) :
    (ofDefinitions ds).names.Pairwise fun a b => (ds.map (·.name)).idxOf a < (ds.map (·.name)).idxOf b := by
  induction ds using List.reverseRecOn with
  | nil => exact .nil
  | append_singleton ds d ih =>
    rw [ofDefinitions_concat, (named_ofDefinitions ds).names_enter, List.map_append]
    have hbefore : (ofDefinitions ds).names.Pairwise fun a b =>
        (ds.map (·.name) ++ [d].map (·.name)).idxOf a < (ds.map (·.name) ++ [d].map (·.name)).idxOf b := by
      refine ih.imp_of_mem fun ha hb hlt => ?_
      rw [List.idxOf_append_of_mem ((mem_names_ofDefinitions ds).1 ha),
        List.idxOf_append_of_mem ((mem_names_ofDefinitions ds).1 hb)]
      exact hlt
    split
    next => exact hbefore
    next hnew =>
      refine List.pairwise_append.2 ⟨hbefore, List.pairwise_singleton _ _, fun a ha b hb => ?_⟩
      obtain rfl := List.mem_singleton.1 hb
      have hmem := (mem_names_ofDefinitions ds).1 ha
      rw [List.idxOf_append_of_mem hmem, List.idxOf_append_of_notMem (mt (mem_names_ofDefinitions ds).2 hnew)]
      exact Nat.lt_add_right _ (List.idxOf_lt_length_of_mem hmem)

end Store
end Foreach

import Foreach.Proofs.Definition.Archive
import Foreach.Proofs.Definition.Names
import Foreach.Proofs.Json.Shape

/-!
What a file makes of a store that is loaded from it.

Bytes can be bad in four ways: they are no text, the text is no document, the document lists nothing, or what
it lists is no record. Three of these are passed over, but for a list that is not even empty: what counts as
something and cannot be gone through stops the loading, as bytes that are no text do.
-/

namespace Foreach

/-- A JSON value that is neither empty nor something to go through. -/
inductive Value.IsSolid : Value → Prop
  | truth : IsSolid (.bool true)
  | int {n : Int} (h : n ≠ 0) : IsSolid (.int n)
  | float {x : Binary64} (h : x.isZero = false) : IsSolid (.float x)

namespace Store

variable {s : Store} {d : Definition} {ds : List Definition} {es : List (Key × Value)}

/-- The records of a document: what it has as a list under its name for them, and otherwise nothing. -/
def listed (es : List (Key × Value)) : List Value :=
  match Mapping.getText? es "iterables" with
  | some (.list records) => records
  | _ => []

/-- The definitions that records hold. -/
def validOf (records : List Value) : List Definition := records.filterMap fun r => (Definition.check r).toOption

/-- A document whose records cannot be gone through, and the failure to do so. -/
def Unlisted (es : List (Key × Value)) (f : Fault) : Prop :=
  ∃ v, Mapping.getText? es "iterables" = some v ∧ v.IsSolid ∧ f = notIterable v

theorem validOf_eq_nil {records : List Value} (h : ∀ r ∈ records, ∀ m, r ≠ .map m) : validOf records = [] := by
  refine List.filterMap_eq_nil_iff.2 fun r hr => ?_
  unfold Definition.check
  split
  next m => exact absurd rfl (h _ hr m)
  next => rfl

theorem toValue_ne_map (k : Key) (m : Mapping) : k.toValue ≠ .map m := by
  cases k <;> simp [Key.toValue]

theorem recordsOf_map (es : List (Key × Value)) :
    recordsOf (.map es) =
      if ((Mapping.getText? es "iterables").getD .null).isTruthy
      then elements ((Mapping.getText? es "iterables").getD .null) else .ok [] := by
  cases es with
  | nil => rfl
  | cons e es =>
    have htruthy : (Value.map (e :: es)).isTruthy = true := rfl
    simp only [recordsOf, htruthy, Bool.not_true, Bool.false_eq_true, if_false, Bool.not_eq_true']
    cases ((Mapping.getText? (e :: es) "iterables").getD .null).isTruthy <;> rfl

/-- What is solid counts as something and cannot be gone through. -/
theorem elements_of_isSolid {v : Value} (h : v.IsSolid) : v.isTruthy = true ∧ elements v = .error (notIterable v) := by
  cases h with
  | truth => exact ⟨rfl, rfl⟩
  | int hn =>
    refine ⟨?_, rfl⟩
    simpa [Value.isTruthy] using hn
  | float hx =>
    refine ⟨?_, rfl⟩
    simp [Value.isTruthy, hx]

/-- Of JSON values, what is not solid counts as nothing or can be gone through. -/
theorem falsy_or_iterable {v : Value} (hv : v.IsJson) (hempty : ¬v.IsSolid) :
    (v.isTruthy = false ∧ ∀ items, v ≠ .list items) ∨ (∃ t, v = .text t) ∨ (∃ items, v = .list items) ∨
      ∃ fields, v = .map fields := by
  cases hv with
  | null => exact .inl ⟨rfl, by rintro _ ⟨⟩⟩
  | bool b =>
    cases b with
    | true => exact absurd .truth hempty
    | false => exact .inl ⟨rfl, by rintro _ ⟨⟩⟩
  | int n =>
    have hn : n = 0 := by
      by_contra hn
      exact hempty (.int hn)
    exact .inl ⟨by simp [Value.isTruthy, hn], by rintro _ ⟨⟩⟩
  | float x =>
    have hx : x.isZero = true := by
      by_contra hx
      exact hempty (.float (Bool.eq_false_of_not_eq_true hx))
    exact .inl ⟨by simp [Value.isTruthy, hx], by rintro _ ⟨⟩⟩
  | text t => exact .inr (.inl ⟨t, rfl⟩)
  | list items => exact .inr (.inr (.inl ⟨_, rfl⟩))
  | map texts values => exact .inr (.inr (.inr ⟨_, rfl⟩))

/-- A text is gone through character by character, and a character is no record. -/
theorem validOf_chars (t : String) : validOf (t.toList.map fun c => Value.text c.toString) = [] := by
  refine validOf_eq_nil fun r hr m => ?_
  obtain ⟨c, -, rfl⟩ := List.mem_map.1 hr
  rintro ⟨⟩

/-- So is a mapping, key by key. -/
theorem validOf_keys (fields : List (Key × Value)) : validOf (fields.map fun (k, _) => k.toValue) = [] := by
  refine validOf_eq_nil fun r hr m => ?_
  obtain ⟨⟨k, w⟩, -, rfl⟩ := List.mem_map.1 hr
  exact toValue_ne_map k m

/-- Where there is a list of records it is gone through. There is no record in anything else that can be gone
through, and what cannot is passed over if it is empty. -/
theorem recordsOf_cases (hes : (Value.map es).IsJson) :
    (∃ f, Unlisted es f ∧ recordsOf (.map es) = .error f) ∨
      ((∀ f, ¬Unlisted es f) ∧
        ∃ records, recordsOf (.map es) = .ok records ∧ validOf records = validOf (listed es)) := by
  rw [recordsOf_map, listed]
  cases hv : Mapping.getText? es "iterables" with
  | none =>
    refine .inr ⟨?_, [], rfl, rfl⟩
    rintro f ⟨v, hother, -⟩
    cases hv.symm.trans hother
  | some v =>
    rw [Option.getD_some]
    by_cases hsolid : v.IsSolid
    · obtain ⟨htruthy, helements⟩ := elements_of_isSolid hsolid
      rw [if_pos htruthy]
      exact .inl ⟨_, ⟨v, hv, hsolid, rfl⟩, helements⟩
    · have hlisted : ∀ f, ¬Unlisted es f := by
        rintro f ⟨w, hw, hother, -⟩
        cases hv.symm.trans hw
        exact hsolid hother
      refine .inr ⟨hlisted, ?_⟩
      rcases falsy_or_iterable (hes.of_getText? hv) hsolid with
        ⟨hfalsy, hnone⟩ | ⟨t, rfl⟩ | ⟨items, rfl⟩ | ⟨fields, rfl⟩
      -- What counts as nothing is not gone through, and neither is it a list.
      · rw [if_neg (by simp [hfalsy])]
        refine ⟨[], rfl, ?_⟩
        split
        next records heq => exact absurd (Option.some.inj heq) (hnone records)
        next => rfl
      · split
        next => exact ⟨_, rfl, validOf_chars t⟩
        next => exact ⟨[], rfl, rfl⟩
      · refine ⟨items, ?_, rfl⟩
        split
        next => rfl
        next hempty =>
          have hnil : items = [] := by simpa [Value.isTruthy] using hempty
          rw [hnil]
      · split
        next => exact ⟨_, rfl, validOf_keys fields⟩
        next => exact ⟨[], rfl, rfl⟩

/-- The store has these definitions, of those with one name the last, in the order in which the names first
come up. -/
structure Collects (s : Store) (ds : List Definition) : Prop where
  definitions : ∀ d, d ∈ s.list ↔ lastNamed ds d.name = some d
  names : ∀ name, name ∈ s.names ↔ name ∈ ds.map (·.name)
  nodup : s.names.Nodup
  ordered : s.names.Pairwise fun a b => (ds.map (·.name)).idxOf a < (ds.map (·.name)).idxOf b

theorem collects_ofDefinitions (ds : List Definition) : (ofDefinitions ds).Collects ds where
  definitions d := by
    refine ⟨lastNamed_of_mem, fun hlast => ?_⟩
    have hd : d ∈ ds := List.mem_reverse.1 (List.mem_of_find?_eq_some hlast)
    have hname : d.name ∈ (ofDefinitions ds).names := (mem_names_ofDefinitions ds).2 (List.mem_map_of_mem hd)
    obtain ⟨e, he, heq⟩ := List.mem_map.1 hname
    have hsame := lastNamed_of_mem he
    rw [heq, hlast] at hsame
    cases hsame
    exact he
  names name := mem_names_ofDefinitions ds
  nodup := (named_ofDefinitions ds).names_nodup
  ordered := names_ofDefinitions ds

/-- The store of a document that can be gone through collects the definitions of its records. -/
theorem deserialize_map_cases (hes : (Value.map es).IsJson) :
    (∃ f, Unlisted es f ∧ ∀ s : Store, s.deserialize (.map es) = (.error f, s)) ∨
      ((∀ f, ¬Unlisted es f) ∧ ∃ t notices, (∀ s : Store, s.deserialize (.map es) = (.ok notices, t)) ∧
        t.Collects (validOf (listed es))) := by
  rcases recordsOf_cases hes with ⟨f, hunlisted, hrecords⟩ | ⟨hlisted, records, hrecords, hvalid⟩
  · refine .inl ⟨f, hunlisted, fun s => ?_⟩
    rw [deserialize, hrecords]
  · refine .inr ⟨hlisted, (loadAll .empty records).1, (loadAll .empty records).2, fun s => ?_, ?_⟩
    · rw [deserialize, hrecords]
    · rw [loadAll_fst, ← hvalid]
      exact collects_ofDefinitions (validOf records)

end Store

namespace Archive

variable {a : Archive} {s : Store} {fs : Files} {bytes : List UInt8}

/-- The document in a file, where that is a mapping. -/
def documentIn (bytes : List UInt8) : Option Mapping :=
  match (Utf8.decode bytes).bind Json.read with
  | some (.map es) => some es
  | _ => none

/-- The records that are listed in a file; none if there is no document in it. -/
def recordsIn (bytes : List UInt8) : List Value := (documentIn bytes).elim [] Store.listed

/-- What keeps a file from being loaded, and how that fails: it is no text, or its document gives something
solid for the list of its records. -/
inductive Obstacle (bytes : List UInt8) : Fault → Prop
  | undecodable (hdecode : Utf8.decode bytes = none) : Obstacle bytes .undecodable
  | unlisted {es : Mapping} {f : Fault} (hdocument : documentIn bytes = some es) (hlist : Store.Unlisted es f) :
      Obstacle bytes f

theorem documentIn_eq_some {es : Mapping} (h : documentIn bytes = some es) :
    ∃ cs, Utf8.decode bytes = some cs ∧ Json.read cs = some (.map es) := by
  unfold documentIn at h
  split at h
  next es' hread =>
    cases h
    exact Option.bind_eq_some_iff.1 hread
  next => cases h

theorem storeOf_of_document {es : Mapping} (h : documentIn bytes = some es) :
    storeOf bytes = filled (Store.empty.deserialize (.map es)) := by
  obtain ⟨cs, hdecode, hread⟩ := documentIn_eq_some h
  simp only [storeOf, fillFrom, documentOf, hdecode, hread]
  rcases Store.empty.deserialize (.map es) with ⟨_ | _, _⟩ <;> rfl

theorem Obstacle.unique {f g : Fault} (hf : Obstacle bytes f) (hg : Obstacle bytes g) : f = g := by
  have hnone : ∀ {es}, Utf8.decode bytes = none → documentIn bytes ≠ some es := by
    intro es hdecode hdocument
    obtain ⟨cs, htext, -⟩ := documentIn_eq_some hdocument
    cases hdecode.symm.trans htext
  cases hf with
  | undecodable hdecode =>
    cases hg with
    | undecodable => rfl
    | unlisted hdocument => exact absurd hdocument (hnone hdecode)
  | unlisted hdocument hlist =>
    cases hg with
    | undecodable hdecode => exact absurd hdocument (hnone hdecode)
    | unlisted hother hlist' =>
      cases hdocument.symm.trans hother
      obtain ⟨v, hv, -, rfl⟩ := hlist
      obtain ⟨w, hw, -, rfl⟩ := hlist'
      cases hv.symm.trans hw
      rfl

/-- A text that is no document, or is another value than a mapping, makes an empty store. -/
theorem storeOf_of_none {cs : List Char} (hdecode : Utf8.decode bytes = some cs) (h : documentIn bytes = none) :
    ∃ notices, storeOf bytes = .ok (.empty, notices) := by
  have hdocument : ∃ notices, documentOf bytes = .ok (.null, notices) := by
    unfold documentIn at h
    rw [hdecode, Option.bind_some] at h
    simp only [documentOf, hdecode]
    split
    next => exact ⟨_, rfl⟩
    next es hread =>
      rw [hread] at h
      cases h
    next => exact ⟨_, rfl⟩
  obtain ⟨notices, hdocument⟩ := hdocument
  rw [storeOf, fillFrom, hdocument]
  exact ⟨_, rfl⟩

/-- A file cannot be loaded, or makes a store that collects the definitions of its records. -/
theorem storeOf_cases (bytes : List UInt8) :
    (∃ f, Obstacle bytes f ∧ storeOf bytes = .error f) ∨
      ((∀ f, ¬Obstacle bytes f) ∧ ∃ s notices, storeOf bytes = .ok (s, notices) ∧
        s.Collects (Store.validOf (recordsIn bytes))) := by
  cases hdecode : Utf8.decode bytes with
  | none =>
    refine .inl ⟨.undecodable, .undecodable hdecode, ?_⟩
    simp only [storeOf, fillFrom, documentOf, hdecode, filled]
  | some cs =>
    cases hdocument : documentIn bytes with
    | none =>
      obtain ⟨notices, hstore⟩ := storeOf_of_none hdecode hdocument
      refine .inr ⟨fun f hf => ?_, .empty, notices, hstore, ?_⟩
      · cases hf with
        | undecodable hnone => cases hdecode.symm.trans hnone
        | unlisted hsome => cases hdocument.symm.trans hsome
      · rw [recordsIn, hdocument]
        exact Store.collects_ofDefinitions []
    | some es =>
      obtain ⟨text, -, hread⟩ := documentIn_eq_some hdocument
      rw [storeOf_of_document hdocument, recordsIn, hdocument]
      rcases Store.deserialize_map_cases (Json.read_isJson hread) with
        ⟨f, hunlisted, hfault⟩ | ⟨hlisted, t, notices, hstore, hcollects⟩
      · exact .inl ⟨f, .unlisted hdocument hunlisted, by rw [hfault, filled]⟩
      · refine .inr ⟨fun f hf => ?_, t, notices, by rw [hstore, filled], hcollects⟩
        cases hf with
        | undecodable hnone => cases hdecode.symm.trans hnone
        | unlisted hother hunlisted =>
          cases hdocument.symm.trans hother
          exact hlisted f hunlisted

/-- Loading a file into a store, whatever bytes are in the file. It fails just if there is an obstacle to it:
the bytes are no text, or the document gives something solid for the list of its records. Then the store is
as it was. Otherwise the store has the definitions of the records that the document lists, and none if there
is no document or no list in it, and the count is how many the store has now. The file stays as it is. -/
theorem load_file (a : Archive) (s : Store) (fs : Files) (bytes : List UInt8)
    (hfile : fs.get? a.place = some (.file bytes)) (hlock : a.Lockable fs) :
    let loaded := a.load s fs
    (∀ f, loaded.1 = .error f ↔ Obstacle bytes f) ∧
      (∀ f, loaded.1 = .error f → loaded.2.1 = s) ∧
      (∀ count notices, loaded.1 = .ok (count, notices) →
        loaded.2.1.Collects (Store.validOf (recordsIn bytes)) ∧ count = loaded.2.1.list.length) ∧
      loaded.2.2.get? a.place = some (.file bytes) := by
  intro loaded
  obtain ⟨locked, hlocked⟩ := hlock
  have hcontents := contents_of_file hfile
  have hplace : locked.get? a.place = some (.file bytes) := (lock_place hlocked).trans hfile
  rcases storeOf_cases bytes with ⟨f, hobstacle, hstore⟩ | ⟨hclear, t, notices, hstore, hcollects⟩
  · have hloaded : loaded = (.error f, s, locked) := load_of_error hlocked (hcontents.trans hstore) s
    rw [hloaded]
    refine ⟨fun g => ⟨?_, fun hg => ?_⟩, fun _ _ => rfl, nofun, hplace⟩
    · rintro heq
      cases heq
      exact hobstacle
    · rw [hobstacle.unique hg]
  · have hloaded : loaded = (.ok (t.size, notices), t, locked) :=
      load_of_contents hlocked (hcontents.trans hstore) s
    rw [hloaded]
    refine ⟨fun g => iff_of_false nofun (hclear g), nofun, ?_, hplace⟩
    intro count more heq
    cases heq
    exact ⟨hcollects, t.size_eq⟩

/-- A file that lists a number and a definition. -/
def lettersFile : List UInt8 := Files.ofText
  "\x7b\"iterables\": [5, \x7b\"name\": \"letters\", \"type\": \"list\", \"created_at\": 0, \"updated_at\": 0\x7d]\x7d"

/-- An archive, and a tree of files with nothing in it but these bytes there. -/
def definitionsFile : Archive := ⟨["definitions.json"]⟩

def filesWith (bytes : List UInt8) : Files := Files.empty.set definitionsFile.place (.file bytes)

theorem lockable_filesWith (bytes : List UInt8) : definitionsFile.Lockable (filesWith bytes) := ⟨_, rfl⟩

theorem load_file_letters :
    (filesWith lettersFile).get? definitionsFile.place = some (.file lettersFile) ∧
      definitionsFile.Lockable (filesWith lettersFile) ∧
      ∃ count notices after files, definitionsFile.load .empty (filesWith lettersFile) =
          (.ok (count, notices), after, files) ∧
        after.Collects (Store.validOf (recordsIn lettersFile)) ∧ count = after.list.length ∧
        after.names = ["letters"] := by
  have hfile : (filesWith lettersFile).get? definitionsFile.place = some (.file lettersFile) := rfl
  have hlock := lockable_filesWith lettersFile
  obtain ⟨-, -, hloaded, -⟩ := load_file definitionsFile .empty (filesWith lettersFile) lettersFile hfile hlock
  refine ⟨hfile, hlock, ?_⟩
  have hok : (definitionsFile.load .empty (filesWith lettersFile)).1.isOk = true := by decide +kernel
  have hnames : (definitionsFile.load .empty (filesWith lettersFile)).2.1.names = ["letters"] := by
    decide +kernel
  generalize definitionsFile.load .empty (filesWith lettersFile) = loaded at *
  obtain ⟨_ | ⟨count, notices⟩, after, files⟩ := loaded
  · cases hok
  · obtain ⟨hcollects, hcount⟩ := hloaded count notices rfl
    exact ⟨count, notices, after, files, rfl, hcollects, hcount, hnames⟩

/-- Bytes that are no text, and a number for the list, stop the loading. -/
theorem load_fails_on_content :
    let number := Files.ofText "\x7b\"iterables\": 5\x7d"
    (definitionsFile.lock (filesWith [0xff])).isOk = true ∧
      (definitionsFile.load .empty (filesWith [0xff])).1.isOk = false ∧
      (definitionsFile.lock (filesWith number)).isOk = true ∧
      (definitionsFile.load .empty (filesWith number)).1.isOk = false := by
  decide +kernel

end Archive
end Foreach

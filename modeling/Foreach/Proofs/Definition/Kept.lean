import Foreach.Proofs.Definition.Archive
import Foreach.Proofs.Definition.Names

/-!
What can be done with an archive that was saved.

A store that has a document can be saved wherever the archive is a file and its lock can be taken. And what
is read from an archive that was saved can be written without a half, its specs too.
-/

namespace Foreach

/-- If some bytes encode a record, they encode the spec of the definition that is read from it. -/
theorem Definition.encodable_spec_of_check {d e : Definition} {r : Value} (hdocument : e.document = .ok r)
    (hr : Json.Encodable r) (hcheck : check r = .ok d) : Json.Encodable (.map d.spec) := by
  obtain ⟨spec, hspec, rfl⟩ := document_eq_ok hdocument
  rw [check_fields hspec] at hcheck
  cases hcheck
  exact (hr.entry (e := (.text "spec", .map (Mapping.ofEntries spec))) (by simp [fields])).2

namespace Store

variable {s t : Store} {document : Value}

/-- What a store is read from has a record of each definition. -/
theorem exists_check_of_mem {records : List Value} {notices : List Notice}
    (h : s.deserialize (.record [("iterables", .list records)]) = (.ok notices, t)) {d : Definition}
    (hd : d ∈ t.list) : ∃ r ∈ records, Definition.check r = .ok d := by
  rw [deserialize_eq_ok h] at hd
  have hmem := List.mem_of_find?_eq_some (lastNamed_of_mem hd)
  rw [List.mem_reverse, definitionsOf, recordsOf_record] at hmem
  obtain ⟨r, hr, hcheck⟩ := List.mem_filterMap.1 hmem
  cases hresult : Definition.check r with
  | error issues =>
    rw [hresult] at hcheck
    cases hcheck
  | ok e =>
    rw [hresult] at hcheck
    cases hcheck
    exact ⟨r, hr, hresult⟩

theorem Settled.delete (hs : s.Settled) (name : Key) : (s.delete name).1.Settled :=
  ⟨hs.toNamed.delete name, fun e he => hs.encodable e (List.mem_filter.1 he).1⟩

theorem Settled.encodable_of_mem (hs : s.Settled) {d : Definition} (hd : d ∈ s.list) : d.Encodable := by
  obtain ⟨e, he, rfl⟩ := List.mem_map.1 hd
  exact hs.encodable e he

/-- Some bytes encode the document of a settled store. -/
theorem Settled.encodable_document (hs : s.Settled) (h : s.serialize = .ok document) :
    Json.Encodable document := by
  obtain ⟨records, hrecords, rfl⟩ := serialize_eq_ok h
  have hall : ∀ r ∈ records, Json.Encodable r := by
    intro r hr
    obtain ⟨d, hd, hdocument⟩ := exists_of_forall₂ hrecords.flip hr
    obtain ⟨v, hv, hencodable⟩ := hs.encodable_of_mem hd
    cases hdocument.symm.trans hv
    exact hencodable
  have hkey : Text.Whole "iterables".toList := by decide
  exact Json.encodable_map (List.forall_mem_singleton.2 ⟨_, rfl, hkey⟩)
    (List.forall_mem_singleton.2 (Json.encodable_list hall))

end Store

namespace Archive

variable {a : Archive} {s : Store} {fs locked : Files} {notices : List Notice}

/-- An archive is not there, and holds nothing, or it is a file, and holds what its bytes say. -/
theorem contents_eq_ok (h : a.contents fs = .ok (s, notices)) :
    (fs.get? a.place = none ∧ s = .empty) ∨
      ∃ bytes, fs.get? a.place = some (.file bytes) ∧ storeOf bytes = .ok (s, notices) := by
  cases hnode : fs.get? a.place with
  | none =>
    cases (contents_of_absent hnode).symm.trans h
    exact .inl ⟨rfl, rfl⟩
  | some node =>
    cases node with
    | file bytes => exact .inr ⟨bytes, rfl, (contents_of_file hnode).symm.trans h⟩
    | directory =>
      simp only [contents, fill, Files.read, hnode, filled] at h
      cases h

theorem storeOf_eq_ok {bytes : List UInt8} (h : storeOf bytes = .ok (s, notices)) :
    ∃ document more, Store.empty.deserialize document = (.ok more, s) := by
  unfold storeOf fillFrom at h
  split at h
  next => cases h
  next document notices _ =>
    rcases hstore : Store.empty.deserialize document with ⟨f | more, t⟩
    · rw [hstore] at h
      cases h
    · rw [hstore] at h
      cases h
      exact ⟨document, more, hstore⟩

theorem named_of_contents (h : a.contents fs = .ok (s, notices)) : s.Named := by
  rcases contents_eq_ok h with ⟨-, rfl⟩ | ⟨bytes, -, hbytes⟩
  · exact Store.named_empty
  · obtain ⟨document, more, hstore⟩ := storeOf_eq_ok hbytes
    rw [Store.deserialize_eq_ok hstore]
    exact Store.named_ofDefinitions _

/-- An archive that holds something is a file. -/
theorem file_of_contents (h : a.contents fs = .ok (s, notices)) {d : Definition} (hd : d ∈ s.list) :
    ∃ bytes, fs.get? a.place = some (.file bytes) := by
  rcases contents_eq_ok h with ⟨-, rfl⟩ | ⟨bytes, hfile, -⟩
  · cases hd
  · exact ⟨bytes, hfile⟩

/-- A settled store can be saved where the archive is a file and the lock can be taken. -/
theorem save_of_settled (hs : s.Settled) (hlock : a.lock fs = .ok locked) {old : List UInt8}
    (hfile : fs.get? a.place = some (.file old)) : ∃ after, a.save s fs = (.ok (), after) := by
  obtain ⟨document, hdocument⟩ := hs.serialize
  -- That it is encodable only says that it can be written in some layout.
  obtain ⟨cs, hprint, hwhole⟩ := (hs.encodable_document hdocument).printsWhole .indented 0
  have htext : text? document = some (cs ++ ['\n']) := Option.map_eq_some_iff.2 ⟨cs, hprint, rfl⟩
  have hbytes : Files.bytesOf (cs ++ ['\n']) = .ok (Utf8.encode (cs ++ ['\n'])) := by
    rw [Files.bytesOf, Utf8.encode?_of_whole (Text.whole_append.2 ⟨hwhole, by decide⟩)]
    rfl
  have hwrite := write_of_lock hlock ((lock_place hlock).trans hfile) (Utf8.encode (cs ++ ['\n']))
  refine ⟨locked.set a.place (.file (Utf8.encode (cs ++ ['\n']))), ?_⟩
  simp only [save, hdocument, htext, hlock, hbytes, Except.bind, hwrite]

/-- No half stands in a spec that is read from what was saved. -/
theorem Kept.encodable_spec (hkept : a.Kept fs) (h : a.contents fs = .ok (s, notices)) {d : Definition}
    (hd : d ∈ s.list) : Json.Encodable (.map d.spec) := by
  rcases hkept with habsent | ⟨b, t, before, after, hsave, hplace⟩
  · rw [contents_of_absent habsent] at h
    cases h
    cases hd
  · obtain ⟨document, text, locked, hserialize, htext, hwhole, -, hwrite⟩ := save_eq_ok hsave
    have hencodable := encodable_of_text htext hwhole
    obtain ⟨records, hrecords, rfl⟩ := Store.serialize_eq_ok hserialize
    have hlist := (hencodable.entry (e := (.text "iterables", .list records)) (by simp)).2
    rw [(Files.write_eq_ok hwrite).1] at hplace
    obtain ⟨u, hu, -⟩ := Store.deserialize_serialize hserialize
    cases (storeOf_text hserialize htext (hu .empty)).symm.trans ((contents_of_file hplace).symm.trans h)
    obtain ⟨r, hr, hcheck⟩ := Store.exists_check_of_mem (hu .empty) hd
    obtain ⟨e, -, hdocument⟩ := exists_of_forall₂ hrecords.flip hr
    exact Definition.encodable_spec_of_check hdocument (hlist.item hr) hcheck

end Archive
end Foreach

import Foreach.Proofs.Definition.Archive
import Foreach.Proofs.Definition.History

/-!
The way of a store through its document or its archive, and back.

Whatever calls have made a store, each definition stands under its own name, so none is lost on the way.
A spec comes back in its document form, which no further way changes.
-/

namespace Foreach.History.Annals

theorem named_ofCalls (clock : Clock) (calls : List Call) : (ofCalls clock calls).store.Named :=
  (tells_ofCalls clock calls).named

/-- A store that is read from the document of a store tells the same of every name, in the same order, and
has that document too. Definitions whose specs are plain are read as they were if no key of a spec has half
a character in it. -/
theorem deserialize_serialize_calls (clock : Clock) (calls : List Call) {document : Value}
    (h : (ofCalls clock calls).store.serialize = .ok document) :
    ∃ t, (∀ s : Store, s.deserialize document = (.ok [], t)) ∧
      (∀ a : Annals, (a.add (.deserialize document)).store = t) ∧
      t.list.map Definition.face = (ofCalls clock calls).store.list.map Definition.face ∧
      t.serialize = .ok document ∧
      ((∀ d ∈ (ofCalls clock calls).store.list, d.Plain) → t.list = (ofCalls clock calls).store.list) := by
  have hnamed := named_ofCalls clock calls
  obtain ⟨t, ht, -, -, hmirrors, hplain⟩ := Store.deserialize_serialize h
  refine ⟨t, ht, fun a => ?_, (hmirrors hnamed).faces, (hmirrors hnamed).serialize.trans h, fun hd => ?_⟩
  · simp only [add, Call.attempt, ht, Except.map]
  · rw [hplain hnamed hd]

/-- A clock that stands still. -/
def stillClock : Clock := ⟨fun _ => .epoch, 0⟩

/-- The definition of a list with one entry in its spec. -/
def defineList (name key : String) (v : Value) : Call :=
  .define (fun _ => true) name (.text "list") (.map [(.text key, v)]) .null

def numbersCalls : List Call := [defineList "numbers" "items" (.list [.int 1])]

/-- The key is half a character. -/
def halfKeyCalls : List Call := [defineList "letters" (String.ofList [Text.charOfCode 0xd800]) (.int 1)]

theorem deserialize_serialize_numbers :
    ∃ document t, (ofCalls stillClock numbersCalls).store.serialize = .ok document ∧
      (∀ s : Store, s.deserialize document = (.ok [], t)) ∧ t.serialize = .ok document ∧
      t.list = (ofCalls stillClock numbersCalls).store.list := by
  obtain ⟨t, ht, -, -, hserialize, hlist⟩ := deserialize_serialize_calls stillClock numbersCalls rfl
  refine ⟨_, t, rfl, ht, hserialize, hlist ?_⟩
  refine List.forall_mem_singleton.2 ⟨.map (List.pairwise_singleton _ _) ?_ ?_, ?_⟩
  · exact List.forall_mem_singleton.2 ⟨"items", rfl⟩
  · exact List.forall_mem_singleton.2 (.list (List.forall_mem_singleton.2 (.int 1)))
  · exact List.forall_mem_singleton.2 ⟨"items", rfl, by decide⟩

/-- Half a character in a key of a spec is lost on the way, plain as the spec may be. -/
theorem half_key_is_lost :
    ∃ document t, (ofCalls stillClock halfKeyCalls).store.serialize = .ok document ∧
      (∀ s : Store, s.deserialize document = (.ok [], t)) ∧
      (∀ d ∈ (ofCalls stillClock halfKeyCalls).store.list, (Value.map d.spec).Plain) ∧
      Store.sameDefinitions t.list (ofCalls stillClock halfKeyCalls).store.list = false := by
  refine ⟨_, _, rfl, fun _ => rfl, ?_, by decide +kernel⟩
  refine List.forall_mem_singleton.2 (.map (List.pairwise_singleton _ _) ?_ ?_)
  · exact List.forall_mem_singleton.2 ⟨_, rfl⟩
  · exact List.forall_mem_singleton.2 (.int 1)

/-! ### Through the archive -/

/-- Whatever store is loaded from where a store was saved becomes the one that is read from the document, with
as many definitions as there were and no notice; to save it again makes no difference to the file. A save
that fails leaves the archive as it was. -/
theorem load_save_calls (clock : Clock) (calls : List Call) (a : Archive) (before : Files) :
    (∀ after, a.save (ofCalls clock calls).store before = (.ok (), after) →
      ∃ document t bytes locked again, (ofCalls clock calls).store.serialize = .ok document ∧
        (∀ s : Store, s.deserialize document = (.ok [], t)) ∧
        after.get? a.place = some (.file bytes) ∧
        (∀ s, a.load s after = (.ok (t.size, []), t, locked)) ∧ t.size = (ofCalls clock calls).store.size ∧
        a.save t locked = (.ok (), again) ∧ again.get? a.place = some (.file bytes)) ∧
      ∀ f after, a.save (ofCalls clock calls).store before = (.error f, after) →
        after.get? a.place = before.get? a.place := by
  refine ⟨fun after hsave => ?_, fun f after hsave => (Archive.untouched_save hsave).place⟩
  have hnamed := named_ofCalls clock calls
  obtain ⟨document, text, locked, hdocument, htext, -, -, hwrite⟩ := Archive.save_eq_ok hsave
  obtain ⟨t, ht, -, -, hmirrors, -⟩ := Store.deserialize_serialize hdocument
  have hplace := (Files.write_eq_ok hwrite).1
  have hcontents : a.contents after = .ok (t, []) :=
    (Archive.contents_of_file hplace).trans (Archive.storeOf_text hdocument htext (ht .empty))
  obtain ⟨relocked, hlock⟩ := Archive.lockable_save hsave
  obtain ⟨again, hagain, hsame⟩ := Archive.save_again hsave (hmirrors hnamed).serialize hlock
  exact ⟨document, t, _, relocked, again, hdocument, ht, hplace, Archive.load_of_contents hlock hcontents,
    (hmirrors hnamed).size, hagain, hsame.trans hplace⟩

/-- A file that holds no document is saved over. -/
theorem load_save_calls_numbers :
    ∃ (before after again : Files) (t : Store),
      before.get? ["iterables.json"] = some (.file (Files.ofText "iterables")) ∧
      Archive.save ⟨["iterables.json"]⟩ (ofCalls stillClock numbersCalls).store
        before = (.ok (), after) ∧
      (∀ s, (Archive.load ⟨["iterables.json"]⟩ s after).1 = .ok (1, []) ∧
        (Archive.load ⟨["iterables.json"]⟩ s after).2.1 = t) ∧
      Archive.save ⟨["iterables.json"]⟩ t (Archive.load ⟨["iterables.json"]⟩ t after).2.2 = (.ok (), again) ∧
      again.get? ["iterables.json"] = after.get? ["iterables.json"] := by
  have hsave : ∃ after, Archive.save ⟨["iterables.json"]⟩
      (ofCalls stillClock numbersCalls).store
        (Files.empty.set ["iterables.json"] (.file (Files.ofText "iterables"))) = (.ok (), after) := ⟨_, rfl⟩
  obtain ⟨after, hsave⟩ := hsave
  obtain ⟨document, t, bytes, locked, again, -, -, hafter, hload, hsize, hagain, hsame⟩ :=
    (load_save_calls stillClock numbersCalls ⟨["iterables.json"]⟩ _).1 after hsave
  refine ⟨_, after, again, t, rfl, hsave, fun s => ?_, ?_, hsame.trans hafter.symm⟩
  · rw [hload, hsize]
    exact ⟨rfl, rfl⟩
  · rw [hload]
    exact hagain

end Foreach.History.Annals

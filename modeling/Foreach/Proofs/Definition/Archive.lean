import Foreach.Definition.Archive
import Foreach.Proofs.Definition.Store
import Foreach.Proofs.Files
import Foreach.Proofs.Text.Utf8

/-!
What an archive holds after it was saved, or was not.

The lock and the directories on the way to it are other places than the archive, so the archive changes
only where a save succeeds. Then it holds the whole document of the store, in bytes that are read as
what they were, and the lock that was taken can be taken again.
-/

namespace Foreach.Archive

variable {a : Archive} {s t : Store} {fs before after locked : Files}

/-! ### The lock -/

theorem lockPlace_ne_place (a : Archive) : a.lockPlace ≠ a.place := by
  intro h
  have hlast := congrArg List.getLast? h
  rw [lockPlace, List.getLast?_append, List.getLast?_singleton, Option.some_or] at hlast
  have hlength := congrArg (fun name? : Option String => (name?.getD "").length) hlast
  simp only [Option.getD_some, String.length_append] at hlength
  have hdot : ".".length = 1 := rfl
  omega

theorem lock_eq_ok (h : a.lock fs = .ok locked) :
    ∃ made, fs.makeDirectories a.directory = .ok made ∧ made.append a.lockPlace [] = .ok locked := by
  unfold lock at h
  split at h
  next => cases h
  next made hmade => exact ⟨made, hmade, h⟩

/-- Taking the lock leaves the archive alone. -/
theorem lock_place (h : a.lock fs = .ok locked) : locked.get? a.place = fs.get? a.place := by
  obtain ⟨made, hmade, happend⟩ := lock_eq_ok h
  rw [(Files.append_eq_ok happend).2 _ a.lockPlace_ne_place.symm]
  by_cases hroot : a.place = []
  · simp [hroot, Files.get?]
  · refine Files.makeWay_get?_of_length hmade ?_
    have := List.length_pos_iff.2 hroot
    simp only [directory, List.length_nil, List.length_dropLast]
    omega

/-- Taking the lock leaves the bytes of every file alone, of the lock file too. -/
theorem lock_file (h : a.lock fs = .ok locked) {q : Place} {bytes : List UInt8}
    (hq : fs.get? q = some (.file bytes)) : locked.get? q = some (.file bytes) := by
  obtain ⟨made, hmade, happend⟩ := lock_eq_ok h
  have hfile := Files.makeWay_get? hmade hq
  by_cases hlock : q = a.lockPlace
  · rw [← hlock, Files.append, hfile] at happend
    rw [(Files.write_eq_ok happend).1, List.append_nil]
  · rw [(Files.append_eq_ok happend).2 q hlock, hfile]

/-- The lock can be taken. -/
def Lockable (a : Archive) (fs : Files) : Prop := ∃ locked, a.lock fs = .ok locked

/-- A lock that was taken can be taken again, whatever files have changed since. -/
theorem lockable_of_spares (h : a.lock fs = .ok locked) {later : Files} (hspares : locked.Spares later)
    (hlock : later.get? a.lockPlace = locked.get? a.lockPlace) : a.Lockable later := by
  obtain ⟨made, hmade, happend⟩ := lock_eq_ok h
  obtain ⟨⟨old, hold⟩, hothers⟩ := Files.append_eq_ok happend
  obtain ⟨hway, hfile⟩ := Files.obstacle?_of_append happend
  have hlater : made.Spares later := fun q hq => hspares q (Files.spares_of_get? hfile hothers q hq)
  have hagain : later.makeDirectories a.directory = .ok later := hlater.makeWay rfl hmade
  rw [hold] at hlock
  refine ⟨later.set a.lockPlace (.file (old ++ [] ++ [])), ?_⟩
  simp only [lock, hagain, Files.append, hlock]
  exact Files.write_eq_set (by simp [hlock]) (hlater.obstacle? hway)

theorem lockable_lock (h : a.lock fs = .ok locked) : a.Lockable locked :=
  lockable_of_spares h (fun _ hq => hq) rfl

/-- The archive is as it was, and its lock can be taken if it could be. -/
structure Untouched (a : Archive) (before after : Files) : Prop where
  place : after.get? a.place = before.get? a.place
  lockable : a.Lockable before → a.Lockable after

theorem Untouched.refl (a : Archive) (fs : Files) : a.Untouched fs fs := ⟨rfl, fun h => h⟩

theorem Untouched.trans {later : Files} (h : a.Untouched before after) (h' : a.Untouched after later) :
    a.Untouched before later :=
  ⟨h'.place.trans h.place, fun hlock => h'.lockable (h.lockable hlock)⟩

theorem untouched_lock (h : a.lock fs = .ok locked) : a.Untouched fs locked :=
  ⟨lock_place h, fun _ => lockable_lock h⟩

/-- A file whose lock was taken can be written: the lock stands in the same directory, under a longer
name. -/
theorem write_of_lock (h : a.lock fs = .ok locked) {old : List UInt8}
    (hfile : locked.get? a.place = some (.file old)) (bytes : List UInt8) :
    locked.write a.place bytes = .ok (locked.set a.place (.file bytes)) := by
  have hplace : a.place ≠ [] := by
    intro hroot
    rw [hroot] at hfile
    cases hfile
  obtain ⟨made, -, happend⟩ := lock_eq_ok h
  obtain ⟨-, hothers⟩ := Files.append_eq_ok happend
  obtain ⟨hway, hlock⟩ := Files.obstacle?_of_append happend
  obtain ⟨hdirectories, hdirectory, hlength⟩ := Files.obstacle?_concat.1 hway
  have hshort : (a.place.getLast hplace).utf8ByteSize ≤ Files.longestName := by
    rw [List.getLast?_eq_some_getLast hplace, Option.getD_some] at hlength
    simp only [String.utf8ByteSize_append] at hlength
    omega
  have hfree : made.obstacle? [] a.place = none := by
    rw [← List.dropLast_append_getLast hplace]
    exact Files.obstacle?_concat.2 ⟨hdirectories, hdirectory, hshort⟩
  exact Files.write_eq_set (by simp [hfile]) ((Files.spares_of_get? hlock hothers).obstacle? hfree)

/-! ### Contents -/

theorem encodable_of_text {document : Value} {text : List Char} (htext : text? document = some text)
    (hwhole : Text.Whole text) : Json.Encodable document := by
  obtain ⟨cs, hprint, rfl⟩ := Option.map_eq_some_iff.1 htext
  exact ⟨.indented, 0, cs, hprint, fun c hc => hwhole c (List.mem_append_left _ hc)⟩

theorem documentOf_text {document : Value} {text : List Char} (hplain : document.Plain)
    (htext : text? document = some text) {es : List (Key × Value)} (hmap : document = .map es) :
    documentOf (Utf8.encode text) = .ok (document, []) := by
  obtain ⟨cs, hprint, rfl⟩ := Option.map_eq_some_iff.1 htext
  have hspace : ∀ c ∈ ['\n'], Json.isSpace c = true := by simp [Json.isSpace]
  subst hmap
  simp only [documentOf, Utf8.decode_encode, Json.read_print hplain hprint hspace]

/-- What there is after an empty store was filled, if it was. -/
def filled : Except Fault (List Notice) × Store → Except Fault (Store × List Notice)
  | (.error f, _) => .error f
  | (.ok notices, s) => .ok (s, notices)

/-- The store that the bytes of an archive describe. -/
def storeOf (bytes : List UInt8) : Except Fault (Store × List Notice) := filled (fillFrom .empty bytes)

/-- The store that the archive holds. -/
def contents (a : Archive) (fs : Files) : Except Fault (Store × List Notice) := filled (a.fill .empty fs)

/-- Every store is filled with the same, or filling it fails and leaves it as it was. -/
def Uniform (fill : Store → Except Fault (List Notice) × Store) : Prop :=
  (∃ f, ∀ s, fill s = (.error f, s)) ∨ ∃ t notices, ∀ s, fill s = (.ok notices, t)

theorem Uniform.of_filled {fill : Store → Except Fault (List Notice) × Store} (hfill : Uniform fill)
    {notices : List Notice} (h : filled (fill .empty) = .ok (t, notices)) (s : Store) :
    fill s = (.ok notices, t) := by
  rcases hfill with ⟨f, hall⟩ | ⟨u, more, hall⟩
  · rw [hall] at h
    cases h
  · rw [hall] at h ⊢
    cases h
    rfl

theorem Uniform.of_error {fill : Store → Except Fault (List Notice) × Store} (hfill : Uniform fill) {f : Fault}
    (h : filled (fill .empty) = .error f) (s : Store) : fill s = (.error f, s) := by
  rcases hfill with ⟨g, hall⟩ | ⟨u, more, hall⟩
  · rw [hall] at h ⊢
    cases h
    rfl
  · rw [hall] at h
    cases h

theorem uniform_fillFrom (bytes : List UInt8) : Uniform (fillFrom · bytes) := by
  unfold fillFrom
  rcases documentOf bytes with f | ⟨document, notices⟩
  · exact .inl ⟨f, fun _ => rfl⟩
  · rcases Store.deserialize_cases document with ⟨f, hall⟩ | ⟨t, more, hall⟩
    · exact .inl ⟨f, fun s => by simp only [hall]⟩
    · exact .inr ⟨t, notices ++ more, fun s => by simp only [hall]⟩

theorem uniform_fill (a : Archive) (fs : Files) : Uniform (a.fill · fs) := by
  unfold fill
  cases fs.get? a.place with
  | none => exact Store.deserialize_cases .null
  | some _ =>
    cases fs.read a.place with
    | error f => exact .inl ⟨f, fun _ => rfl⟩
    | ok bytes => exact uniform_fillFrom bytes

/-- The bytes of a store's document give the store that is read from the document. -/
theorem storeOf_text {document : Value} {text : List Char} (hserialize : s.serialize = .ok document)
    (htext : text? document = some text) {notices : List Notice}
    (ht : Store.empty.deserialize document = (.ok notices, t)) :
    storeOf (Utf8.encode text) = .ok (t, notices) := by
  obtain ⟨records, -, hrecord⟩ := Store.serialize_eq_ok hserialize
  simp only [storeOf, fillFrom, documentOf_text (Store.serialize_plain hserialize) htext hrecord, ht]
  rfl

/-- What an archive holds depends on its own place alone. -/
theorem fill_congr (h : after.get? a.place = before.get? a.place) (s : Store) : a.fill s after = a.fill s before := by
  unfold fill
  rw [h]
  cases hnode : before.get? a.place with
  | none => rfl
  | some node =>
    have hread : after.read a.place = before.read a.place := by
      simp only [Files.read, h, hnode]
      cases node <;> rfl
    rw [hread]

theorem contents_congr (h : after.get? a.place = before.get? a.place) : a.contents after = a.contents before := by
  rw [contents, fill_congr h, contents]

theorem contents_of_absent (h : fs.get? a.place = none) : a.contents fs = .ok (.empty, []) := by
  rw [contents, fill, h]
  rfl

theorem contents_of_file {bytes : List UInt8} (h : fs.get? a.place = some (.file bytes)) :
    a.contents fs = storeOf bytes := by
  simp only [contents, fill, Files.read, h]
  rfl

theorem load_of_contents (hlock : a.lock fs = .ok locked) {notices : List Notice}
    (h : a.contents fs = .ok (t, notices)) (s : Store) : a.load s fs = (.ok (t.size, notices), t, locked) := by
  have hfill : a.fill s locked = (.ok notices, t) := by
    rw [fill_congr (lock_place hlock)]
    exact (uniform_fill a fs).of_filled h s
  simp only [load, hlock, hfill]

theorem load_of_error (hlock : a.lock fs = .ok locked) {f : Fault} (h : a.contents fs = .error f) (s : Store) :
    a.load s fs = (.error f, s, locked) := by
  have hfill : a.fill s locked = (.error f, s) := by
    rw [fill_congr (lock_place hlock)]
    exact (uniform_fill a fs).of_error h s
  simp only [load, hlock, hfill]

theorem lock_eq_error {f : Fault} (h : a.lock fs = .error f) : ∃ cause p, f = Files.fault cause p := by
  unfold lock at h
  split at h
  next hmake =>
    cases h
    exact Files.makeWay_eq_error hmake
  next =>
    obtain ⟨cause, hcause⟩ := Files.append_eq_error h
    exact ⟨cause, _, hcause⟩

theorem status?_of_fillFrom {bytes : List UInt8} {f : Fault} (h : (fillFrom s bytes).1 = .error f) :
    f.status? = none := by
  unfold fillFrom documentOf at h
  split at h
  next hdocument =>
    split at hdocument
    next =>
      cases hdocument
      cases h
      rfl
    next => split at hdocument <;> cases hdocument
  next document notices _ =>
    split at h
    next hdeserialize =>
      cases h
      exact (Store.deserialize_error (congrArg Prod.fst hdeserialize)).status
    next => cases h

/-- What keeps an archive from being loaded has no status of its own. -/
theorem status?_of_load {f : Fault} (h : (a.load s fs).1 = .error f) : f.status? = none := by
  unfold load at h
  split at h
  next hlock =>
    obtain ⟨cause, p, rfl⟩ := lock_eq_error hlock
    cases h
    rfl
  next locked _ =>
    unfold fill at h
    split at h
    next hfill =>
      cases h
      split at hfill
      next => cases hfill
      next =>
        split at hfill
        next hread =>
          obtain ⟨cause, rfl⟩ := Files.read_eq_error hread
          cases hfill
          rfl
        next => exact status?_of_fillFrom (congrArg Prod.fst hfill)
    next => cases h

/-! ### Saving -/

theorem save_eq_ok (h : a.save s before = (.ok (), after)) :
    ∃ document text locked, s.serialize = .ok document ∧ text? document = some text ∧
      Text.Whole text ∧ a.lock before = .ok locked ∧ locked.write a.place (Utf8.encode text) = .ok after := by
  unfold save at h
  split at h
  next => cases h
  next document hdocument =>
    split at h
    next => cases h
    next text htext =>
      split at h
      next => cases h
      next locked hlock =>
        split at h
        next => cases h
        next written hwritten =>
          cases h
          cases hbytes : Files.bytesOf text with
          | error f =>
            rw [hbytes] at hwritten
            cases hwritten
          | ok bytes =>
            obtain ⟨rfl, hwhole⟩ := Files.bytesOf_eq_ok hbytes
            rw [hbytes] at hwritten
            exact ⟨document, text, locked, hdocument, htext, hwhole, hlock, hwritten⟩

/-- A save that fails leaves the archive as it was. -/
theorem untouched_save {f : Fault} (h : a.save s before = (.error f, after)) : a.Untouched before after := by
  unfold save at h
  split at h
  next =>
    cases h
    exact .refl a before
  next =>
    split at h
    next =>
      cases h
      exact .refl a before
    next =>
      split at h
      next =>
        cases h
        exact .refl a before
      next locked hlock =>
        split at h
        next =>
          cases h
          exact untouched_lock hlock
        next => cases h

theorem lockable_save (h : a.save s before = (.ok (), after)) : a.Lockable after := by
  obtain ⟨document, text, locked, -, -, -, hlock, hwrite⟩ := save_eq_ok h
  obtain ⟨-, hothers⟩ := Files.write_eq_ok hwrite
  obtain ⟨-, hfile⟩ := Files.obstacle?_of_write hwrite
  exact lockable_of_spares hlock (Files.spares_of_get? hfile hothers) (hothers _ a.lockPlace_ne_place)

/-- What was saved can be saved again behind the lock, by any store with the same document. -/
theorem save_again (h : a.save s before = (.ok (), after)) (ht : t.serialize = s.serialize)
    (hlock : a.lock after = .ok locked) :
    ∃ again, a.save t locked = (.ok (), again) ∧ again.get? a.place = after.get? a.place := by
  obtain ⟨document, text, first, hdocument, htext, hwhole, hfirst, hwrite⟩ := save_eq_ok h
  have hplace := (Files.write_eq_ok hwrite).1
  obtain ⟨second, hsecond⟩ := lockable_lock hlock
  have hthere : second.get? a.place = some (.file (Utf8.encode text)) := by
    rw [lock_place hsecond, lock_place hlock, hplace]
  have hagain := write_of_lock hsecond hthere (Utf8.encode text)
  refine ⟨_, ?_, (Files.write_eq_ok hagain).1.trans hplace.symm⟩
  have hbytes : Files.bytesOf text = .ok (Utf8.encode text) := by
    rw [Files.bytesOf, Utf8.encode?_of_whole hwhole]
    rfl
  rw [hdocument] at ht
  simp only [save, ht, htext, hsecond, hbytes, Except.bind, hagain]

/-! ### What an archive can be found as -/

/-- The archive is not there, or is what was saved to it or to another one. -/
def Kept (a : Archive) (fs : Files) : Prop :=
  fs.get? a.place = none ∨
    ∃ (b : Archive) (s : Store) (before after : Files),
      b.save s before = (.ok (), after) ∧ fs.get? a.place = after.get? b.place

/-- The archive holds a settled store. -/
structure Holds (a : Archive) (fs : Files) (s : Store) : Prop where
  contents : a.contents fs = .ok (s, [])
  settled : s.Settled

theorem Kept.holds (h : a.Kept fs) : ∃ s, a.Holds fs s := by
  rcases h with habsent | ⟨b, s, before, after, hsave, hplace⟩
  · exact ⟨.empty, contents_of_absent habsent, Store.settled_empty⟩
  · obtain ⟨document, text, locked, hserialize, htext, hwhole, -, hwrite⟩ := save_eq_ok hsave
    obtain ⟨t, ht, hnamed, hdefinitions, -⟩ := Store.deserialize_serialize hserialize
    have hencodable := Store.encodable_of_serialize hserialize (encodable_of_text htext hwhole)
    rw [(Files.write_eq_ok hwrite).1] at hplace
    refine ⟨t, (contents_of_file hplace).trans (storeOf_text hserialize htext (ht .empty)), hnamed, fun e he => ?_⟩
    obtain ⟨d, hd, hmirrors⟩ := hdefinitions e he
    exact (hencodable d hd).of_mirrors hmirrors

theorem Untouched.holds (hfs : a.Untouched before after) (h : a.Holds before s) : a.Holds after s :=
  ⟨(contents_congr hfs.place).trans h.contents, h.settled⟩

/-- After a save the archive holds a store that mirrors the saved one, if the definitions of that stand
under their own names; then that is settled as well. -/
theorem holds_save (hs : s.Named) (h : a.save s before = (.ok (), after)) :
    ∃ t, a.Holds after t ∧ t.Mirrors s ∧ s.Settled := by
  obtain ⟨t, hcontents, hsettled⟩ := Kept.holds (a := a) (.inr ⟨a, s, before, after, h, rfl⟩)
  obtain ⟨document, text, locked, hserialize, htext, hwhole, -, hwrite⟩ := save_eq_ok h
  obtain ⟨u, hu, -, -, hmirrors, -⟩ := Store.deserialize_serialize hserialize
  have hencodable := Store.encodable_of_serialize hserialize (encodable_of_text htext hwhole)
  have hstore := (contents_of_file (Files.write_eq_ok hwrite).1).trans (storeOf_text hserialize htext (hu .empty))
  cases hcontents.symm.trans hstore
  exact ⟨t, ⟨hcontents, hsettled⟩, hmirrors hs, hs, fun e he => hencodable _ (List.mem_map_of_mem he)⟩

end Foreach.Archive

import Foreach.Files.Basic
import Foreach.Proofs.Text.Whole

/-!
What is at a place after the tree of files was changed at one place.

In a sound tree every directory can be reached. No operation makes a tree unsound, and in a sound one a file in a
directory that is there can be written and appended to, and the directory need not be made again.
-/

namespace Foreach.Files

theorem lookup_put (nodes : List (Place × Node)) (p q : Place) (n : Node) :
    (put nodes p n).lookup q = if q = p then some n else nodes.lookup q := by
  induction nodes with
  | nil => grind [put]
  | cons entry rest ih =>
    by_cases hr : entry.1 = p <;> by_cases h : q = entry.1 <;> grind [put]

theorem get?_set {fs : Files} {p q : Place} {n : Node} (hq : q ≠ []) :
    (fs.set p n).get? q = if q = p then some n else fs.get? q := by
  simp only [get?, set, if_neg hq, lookup_put]

theorem get?_set_of_ne {fs : Files} {p q : Place} {n : Node} (h : q ≠ p) :
    (fs.set p n).get? q = fs.get? q := by
  by_cases hq : q = []
  · simp [get?, hq]
  · rw [get?_set hq, if_neg h]

/-- A file that was written holds the bytes, and nothing else has changed. -/
theorem write_eq_ok {fs after : Files} {p : Place} {bytes : List UInt8}
    (h : fs.write p bytes = .ok after) :
    after.get? p = some (.file bytes) ∧ ∀ q ≠ p, after.get? q = fs.get? q := by
  unfold write at h
  split at h
  next => cases h
  next hdirectory =>
    have hp : p ≠ [] := by
      rintro rfl
      exact hdirectory rfl
    split at h
    next =>
      cases h
      exact ⟨by rw [get?_set hp, if_pos rfl], fun q hq => get?_set_of_ne hq⟩
    next => cases h

/-- A file that was appended to ends with the bytes, and nothing else has changed. -/
theorem append_eq_ok {fs after : Files} {p : Place} {bytes : List UInt8}
    (h : fs.append p bytes = .ok after) :
    (∃ old, after.get? p = some (.file (old ++ bytes))) ∧ ∀ q ≠ p, after.get? q = fs.get? q := by
  unfold append at h
  split at h
  next old _ =>
    obtain ⟨hfile, hothers⟩ := write_eq_ok h
    exact ⟨⟨old, hfile⟩, hothers⟩
  next =>
    obtain ⟨hfile, hothers⟩ := write_eq_ok h
    exact ⟨⟨[], hfile⟩, hothers⟩

theorem write_eq_error {fs : Files} {p : Place} {bytes : List UInt8} {f : Fault}
    (h : fs.write p bytes = .error f) : ∃ cause, f = fault cause p := by
  unfold write at h
  split at h
  next =>
    cases h
    exact ⟨_, rfl⟩
  next =>
    split at h
    next => cases h
    next cause _ =>
      cases h
      exact ⟨cause, rfl⟩

theorem append_eq_error {fs : Files} {p : Place} {bytes : List UInt8} {f : Fault}
    (h : fs.append p bytes = .error f) : ∃ cause, f = fault cause p := by
  unfold append at h
  split at h <;> exact write_eq_error h

theorem read_eq_error {fs : Files} {p : Place} {f : Fault} (h : fs.read p = .error f) :
    ∃ cause, f = fault cause p := by
  unfold read at h
  split at h <;> cases h
  · exact ⟨_, rfl⟩
  · exact ⟨_, rfl⟩

theorem makeWay_eq_error {fs : Files} {place : Place} {parts : List String} {f : Fault}
    (h : fs.makeWay place parts = .error f) : ∃ cause p, f = fault cause p := by
  induction parts generalizing fs place with
  | nil => cases h
  | cons part rest ih =>
    simp only [makeWay] at h
    split at h
    next => exact ih h
    next =>
      cases h
      exact ⟨_, _, rfl⟩
    next =>
      split at h
      next =>
        cases h
        exact ⟨_, _, rfl⟩
      next => exact ih h

/-- A way is made only where there was nothing. -/
theorem makeWay_get? {fs after : Files} {place : Place} {parts : List String}
    (h : fs.makeWay place parts = .ok after) {q : Place} {n : Node} (hq : fs.get? q = some n) :
    after.get? q = some n := by
  induction parts generalizing fs place with
  | nil =>
    cases h
    exact hq
  | cons part rest ih =>
    simp only [makeWay] at h
    split at h
    next => exact ih h hq
    next => cases h
    next hnothing =>
      split at h
      next => cases h
      next =>
        refine ih h ?_
        rw [get?_set_of_ne, hq]
        rintro rfl
        rw [hq] at hnothing
        cases hnothing

/-- Only places as short as the way are made into directories. -/
theorem makeWay_get?_of_length {fs after : Files} {place : Place} {parts : List String}
    (h : fs.makeWay place parts = .ok after) {q : Place} (hq : place.length + parts.length < q.length) :
    after.get? q = fs.get? q := by
  induction parts generalizing fs place with
  | nil =>
    cases h
    rfl
  | cons part rest ih =>
    have hnext : (fs.descend place part).length ≤ place.length + 1 := by
      unfold descend
      split
      · rw [List.length_dropLast]
        omega
      · simp
    rw [List.length_cons] at hq
    simp only [makeWay] at h
    split at h
    next => exact ih h (by omega)
    next => cases h
    next =>
      split at h
      next => cases h
      next =>
        rw [ih h (by omega), get?_set_of_ne]
        rintro rfl
        omega

/-- Every directory of one tree is a directory of the other. -/
def Spares (fs later : Files) : Prop := ∀ q, fs.get? q = some .directory → later.get? q = some .directory

theorem Spares.obstacle? {fs later : Files} (hspares : fs.Spares later) {reached : Place} {names : List String}
    (h : fs.obstacle? reached names = none) : later.obstacle? reached names = none := by
  induction names generalizing reached with
  | nil => rfl
  | cons name rest ih =>
    rw [Files.obstacle?] at h
    split at h
    next => cases h
    next => cases h
    next hdirectory =>
      split at h
      next => cases h
      next hshort => rw [Files.obstacle?, hspares reached hdirectory, if_neg hshort, ih h]

/-- Nothing is in the way of a name just if its directory is there and can be reached, and the name is not
too long. -/
theorem obstacle?_concat {fs : Files} {reached : Place} {names : List String} {name : String} :
    fs.obstacle? reached (names ++ [name]) = none ↔
      fs.obstacle? reached names = none ∧ fs.get? (reached ++ names) = some .directory ∧
        name.utf8ByteSize ≤ longestName := by
  induction names generalizing reached with
  | nil =>
    simp only [List.nil_append, List.append_nil, Files.obstacle?]
    cases fs.get? reached with
    | none => simp
    | some node => cases node <;> simp
  | cons first names ih =>
    have hplace : reached ++ first :: names = reached ++ [first] ++ names := List.append_cons ..
    rw [List.cons_append, Files.obstacle?, Files.obstacle?, hplace]
    split
    next => simp
    next => simp
    next =>
      split
      next => simp
      next => exact ih

/-- A way that was made once need not be made again. -/
theorem Spares.makeWay {fs after later : Files} (hspares : after.Spares later) {place : Place}
    {parts : List String} (hplace : fs.get? place = some .directory)
    (h : fs.makeWay place parts = .ok after) : later.makeWay place parts = .ok later := by
  induction parts generalizing fs place with
  | nil => rfl
  | cons part rest ih =>
    have hlater : later.get? place = some .directory := hspares place (makeWay_get? h hplace)
    have hdescend : later.descend place part = fs.descend place part := by
      simp only [descend, isDirectory, hplace, hlater]
    simp only [Files.makeWay] at h
    split at h
    next hnext =>
      have hreached := hspares _ (makeWay_get? h hnext)
      simp only [Files.makeWay, hdescend, hreached]
      exact ih hnext h
    next => cases h
    next hnothing =>
      split at h
      next => cases h
      next =>
        have hroot : fs.descend place part ≠ [] := by
          intro hroot
          rw [hroot] at hnothing
          cases hnothing
        have hnext : (fs.set (fs.descend place part) .directory).get? (fs.descend place part) =
            some .directory := by
          rw [get?_set hroot, if_pos rfl]
        have hreached := hspares _ (makeWay_get? h hnext)
        simp only [Files.makeWay, hdescend, hreached]
        exact ih hnext h

theorem write_eq_set {fs : Files} {p : Place} {bytes : List UInt8} (hp : fs.get? p ≠ some .directory)
    (hway : fs.obstacle? [] p = none) : fs.write p bytes = .ok (fs.set p (.file bytes)) := by
  have hdirectory : ¬ fs.isDirectory p := by simpa [isDirectory] using hp
  rw [write, if_neg hdirectory, hway]

theorem obstacle?_of_write {fs after : Files} {p : Place} {bytes : List UInt8}
    (h : fs.write p bytes = .ok after) : fs.obstacle? [] p = none ∧ fs.get? p ≠ some .directory := by
  unfold write at h
  split at h
  next => cases h
  next hdirectory =>
    split at h
    next hnone => exact ⟨hnone, by simpa [isDirectory] using hdirectory⟩
    next => cases h

theorem obstacle?_of_append {fs after : Files} {p : Place} {bytes : List UInt8}
    (h : fs.append p bytes = .ok after) : fs.obstacle? [] p = none ∧ fs.get? p ≠ some .directory := by
  unfold append at h
  split at h
  next => exact obstacle?_of_write h
  next => exact obstacle?_of_write h

/-- What changes at one place only, and not at a directory, spares every directory. -/
theorem spares_of_get? {fs after : Files} {p : Place} (hp : fs.get? p ≠ some .directory)
    (h : ∀ q ≠ p, after.get? q = fs.get? q) : fs.Spares after := by
  intro q hq
  rw [h q, hq]
  rintro rfl
  exact hp hq

/-! ### Trees whose directories can be reached -/

/-- Nothing is on the way to a directory but directories, and no name on it is a step back. -/
def Sound (fs : Files) : Prop := ∀ q, fs.get? q = some .directory → fs.obstacle? [] q = none ∧ ".." ∉ q

theorem sound_empty : empty.Sound := by
  intro q hq
  have hroot : q = [] := by
    by_contra hne
    simp [get?, empty, if_neg hne] at hq
  subst hroot
  exact ⟨rfl, List.not_mem_nil⟩

theorem Sound.obstacle?_concat {fs : Files} (hfs : fs.Sound) {p : Place} {name : String}
    (hp : fs.get? p = some .directory) (hname : name.utf8ByteSize ≤ longestName) :
    fs.obstacle? [] (p ++ [name]) = none :=
  Files.obstacle?_concat.2 ⟨(hfs p hp).1, hp, hname⟩

theorem Sound.of_get? {fs after : Files} (hfs : fs.Sound) {p : Place} (hp : fs.get? p ≠ some .directory)
    (hafter : after.get? p ≠ some .directory) (h : ∀ q ≠ p, after.get? q = fs.get? q) : after.Sound := by
  intro q hq
  have hne : q ≠ p := by
    rintro rfl
    exact hafter hq
  obtain ⟨hway, hnames⟩ := hfs q (h q hne ▸ hq)
  exact ⟨(spares_of_get? hp h).obstacle? hway, hnames⟩

/-- A step to where nothing is goes down, and not back. -/
theorem Sound.descend_of_absent {fs : Files} (hfs : fs.Sound) {place : Place} {part : String}
    (hplace : fs.get? place = some .directory) (hnothing : fs.get? (fs.descend place part) = none) :
    part ≠ ".." ∧ fs.descend place part = place ++ [part] := by
  have hpart : part ≠ ".." := by
    rintro rfl
    rw [descend, if_pos ⟨rfl, by simp [isDirectory, hplace]⟩] at hnothing
    rcases List.eq_nil_or_concat place with rfl | ⟨above, name, rfl⟩
    · cases hnothing
    · rw [List.concat_eq_append, List.dropLast_concat] at hnothing
      rw [List.concat_eq_append] at hplace
      obtain ⟨-, habove, -⟩ := Files.obstacle?_concat.1 (hfs _ hplace).1
      rw [List.nil_append, hnothing] at habove
      cases habove
  exact ⟨hpart, if_neg fun h => hpart h.1⟩

/-- The way that was made ends at a directory, and the tree is as sound as before. -/
theorem Sound.makeWay {fs after : Files} (hfs : fs.Sound) {place : Place} {parts : List String}
    (hplace : fs.get? place = some .directory) (h : fs.makeWay place parts = .ok after) :
    after.Sound ∧ after.get? (parts.foldl after.descend place) = some .directory := by
  induction parts generalizing fs place with
  | nil =>
    cases h
    exact ⟨hfs, hplace⟩
  | cons part rest ih =>
    have hlater : after.descend place part = fs.descend place part := by
      simp only [descend, isDirectory, hplace, makeWay_get? h hplace]
    rw [List.foldl_cons, hlater]
    simp only [Files.makeWay] at h
    split at h
    next hnext => exact ih hfs hnext h
    next => cases h
    next hnothing =>
      obtain ⟨hpart, hdescend⟩ := hfs.descend_of_absent hplace hnothing
      rw [hdescend] at h hnothing ⊢
      split at h
      next => cases h
      next hway =>
        have hnext : (fs.set (place ++ [part]) .directory).get? (place ++ [part]) = some .directory := by
          rw [get?_set (by simp), if_pos rfl]
        have hothers : ∀ q ≠ place ++ [part], (fs.set (place ++ [part]) .directory).get? q = fs.get? q :=
          fun q hq => get?_set_of_ne hq
        have hspares := spares_of_get? (by simp [hnothing]) hothers
        refine ih (fun q hq => ?_) hnext h
        by_cases hq' : q = place ++ [part]
        · subst hq'
          exact ⟨hspares.obstacle? hway, by simp [(hfs place hplace).2, Ne.symm hpart]⟩
        · obtain ⟨hq, hnames⟩ := hfs q (hothers q hq' ▸ hq)
          exact ⟨hspares.obstacle? hq, hnames⟩

/-- A directory that is there need not be made. -/
theorem makeWay_of_directory {fs : Files} {place : Place} {names : List String} (hnames : ".." ∉ names)
    (hway : fs.obstacle? place names = none) (h : fs.get? (place ++ names) = some .directory) :
    fs.makeWay place names = .ok fs := by
  induction names generalizing place with
  | nil => rfl
  | cons name rest ih =>
    obtain ⟨hname, hrest⟩ := not_or.1 (mt List.mem_cons.2 hnames)
    have hdescend : fs.descend place name = place ++ [name] := if_neg fun h => hname h.1.symm
    have hplace : place ++ name :: rest = place ++ [name] ++ rest := List.append_cons ..
    rw [hplace] at h
    rw [obstacle?] at hway
    split at hway
    next => cases hway
    next => cases hway
    next =>
      split at hway
      next => cases hway
      next =>
        have hnext : fs.get? (place ++ [name]) = some .directory := by
          cases rest with
          | nil => rwa [List.append_nil] at h
          | cons =>
            rw [obstacle?] at hway
            split at hway
            next => cases hway
            next => cases hway
            next hnext => exact hnext
        simp only [makeWay, hdescend, hnext]
        exact ih hrest hway h

theorem Sound.makeDirectories {fs : Files} (hfs : fs.Sound) {p : Place} (hp : fs.get? p = some .directory) :
    fs.makeDirectories p = .ok fs :=
  makeWay_of_directory (hfs p hp).2 (hfs p hp).1 hp

/-! ### The bytes at a place -/

/-- The bytes of the file at a place; where there is no file there are none. -/
def content (fs : Files) (p : Place) : List UInt8 :=
  match fs.get? p with
  | some (.file bytes) => bytes
  | _ => []

theorem content_of_get? {fs : Files} {p : Place} {bytes : List UInt8} (h : fs.get? p = some (.file bytes)) :
    fs.content p = bytes := by
  rw [content, h]

/-- Where no directory is and nothing is in the way, a file can be written. -/
theorem exists_write {fs : Files} {p : Place} (hp : fs.get? p ≠ some .directory) (hway : fs.obstacle? [] p = none)
    (bytes : List UInt8) :
    ∃ after, fs.write p bytes = .ok after ∧ after.get? p = some (.file bytes) ∧ ∀ q ≠ p, after.get? q = fs.get? q :=
  have hwrite := write_eq_set hp hway
  ⟨_, hwrite, write_eq_ok hwrite⟩

/-- There it can be appended to as well, and keeps what it has. -/
theorem exists_append {fs : Files} {p : Place} (hp : fs.get? p ≠ some .directory) (hway : fs.obstacle? [] p = none)
    (bytes : List UInt8) :
    ∃ after, fs.append p bytes = .ok after ∧ after.get? p = some (.file (fs.content p ++ bytes)) ∧
      ∀ q ≠ p, after.get? q = fs.get? q := by
  cases hnode : fs.get? p with
  | none => simpa only [append, content, hnode, List.nil_append] using exists_write hp hway bytes
  | some node =>
    cases node with
    | file old => simpa only [append, content, hnode] using exists_write hp hway (old ++ bytes)
    | directory => exact absurd hnode hp

theorem bytesOf_eq_ok {cs : List Char} {bytes : List UInt8} (h : bytesOf cs = .ok bytes) :
    bytes = Utf8.encode cs ∧ ∀ c ∈ cs, Text.isHalf c = false := by
  unfold bytesOf at h
  cases hencode : Utf8.encode? cs with
  | error message => rw [hencode] at h; cases h
  | ok encoded =>
    rw [hencode] at h
    cases h
    exact Utf8.encode?_eq_ok hencode

theorem bytesOf_of_whole {cs : List Char} (h : Text.Whole cs) : bytesOf cs = .ok (Utf8.encode cs) := by
  rw [bytesOf, Utf8.encode?_of_whole h]
  rfl

theorem bytesOf_of_not_whole {cs : List Char} (h : ¬Text.Whole cs) : ∃ f, bytesOf cs = .error f := by
  cases hbytes : bytesOf cs with
  | error f => exact ⟨f, rfl⟩
  | ok bytes => exact absurd (bytesOf_eq_ok hbytes).2 h

end Foreach.Files

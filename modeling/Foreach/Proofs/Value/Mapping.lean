import Foreach.Value.Mapping
import Mathlib.Data.List.Forall2
import Mathlib.Data.List.Induction

/-!
The keys of a mapping.

No two keys of a mapping are one: an insertion either finds its key or puts it at the end, and taking a
key out leaves the others in order. A mapping all of whose keys differ is what its own entries build.
-/

namespace Foreach.Mapping

variable {α β : Type} {m : List (Key × α)} {key : Key} {v : α}

/-- The keys, in order. -/
def keys (m : List (Key × α)) : List Key := m.map (·.1)

/-- No key is one with a later one. -/
def Distinct (m : List (Key × α)) : Prop := (keys m).Pairwise fun a b => a.same b = false

/-- Every key is a text. -/
def Texts (m : List (Key × α)) : Prop := ∀ e ∈ m, ∃ name, e.1 = .text name

theorem same_text (a b : String) : (Key.text a).same (.text b) = (a == b) := by
  simp only [Key.same]

/-- Only a text is one key with a text. -/
theorem same_text_iff {k : Key} {name : String} : k.same (.text name) = true ↔ k = .text name := by
  cases k with
  | text other => rw [same_text, beq_iff_eq, Key.text.injEq]
  | bool | int | float => simp [Key.same, Key.sameNumber, Key.number?]
  | _ => simp [Key.same]

theorem eq_text_of_same {k : Key} {name : String} (h : (Key.text name).same k = true) : k = .text name := by
  cases k with
  | text other =>
    rw [same_text, beq_iff_eq] at h
    rw [h]
  | _ => simp [Key.same] at h

/-- Under a text is what the first entry with that key holds. -/
theorem getText?_eq_some_iff {name : String} : getText? m name = some v ↔
    ∃ before after, m = before ++ (.text name, v) :: after ∧ ∀ e ∈ before, e.1 ≠ .text name := by
  simp only [getText?, get?, Option.map_eq_some_iff, List.find?_eq_some_iff_append]
  constructor
  · rintro ⟨⟨key, w⟩, ⟨hkey, before, after, rfl, hbefore⟩, rfl⟩
    obtain rfl := same_text_iff.1 hkey
    refine ⟨before, after, rfl, fun e he heq => ?_⟩
    simpa [same_text_iff.2 heq] using hbefore e he
  · rintro ⟨before, after, rfl, hbefore⟩
    refine ⟨_, ⟨same_text_iff.2 rfl, before, after, rfl, fun e he => ?_⟩, rfl⟩
    simpa using mt same_text_iff.1 (hbefore e he)

theorem contains_eq_false : contains m key = false ↔ ∀ k ∈ keys m, k.same key = false := by
  simp [contains, keys]

theorem contains_text_iff {name : String} : contains m (.text name) = true ↔ .text name ∈ keys m := by
  simp only [contains, keys, List.any_eq_true, List.mem_map, same_text_iff]

theorem getText?_eq_none_iff {name : String} : getText? m name = none ↔ .text name ∉ keys m := by
  rw [← contains_text_iff, getText?, get?, Option.map_eq_none_iff, contains, List.any_eq_true]
  simp

/-- A key that is there keeps its place. -/
theorem keys_insert (h : contains m key = true) (v : α) : keys (insert m key v) = keys m := by
  induction m with
  | nil => cases h
  | cons e rest ih =>
    rw [insert]
    split
    next => rfl
    next hsame =>
      have hrest : contains rest key = true := by
        simpa [contains, hsame] using h
      exact congrArg (e.1 :: ·) (ih hrest)

/-- A key that is new is put at the end. -/
theorem insert_of_absent (h : contains m key = false) (v : α) : insert m key v = m ++ [(key, v)] := by
  induction m with
  | nil => rfl
  | cons e rest ih =>
    have hall := contains_eq_false.1 h
    have hsame : e.1.same key = false := hall e.1 (by simp [keys])
    have hrest : contains rest key = false :=
      contains_eq_false.2 fun k hk => hall k (List.mem_cons_of_mem _ hk)
    rw [insert, if_neg (by simp [hsame]), ih hrest, List.cons_append]

theorem getText?_cons (e : Key × α) (m : List (Key × α)) (name : String) :
    getText? (e :: m) name = if e.1.same (.text name) then some e.2 else getText? m name := by
  obtain ⟨k, v⟩ := e
  rw [getText?, get?, List.find?_cons]
  dsimp only
  cases k.same (.text name) <;> rfl

/-- After an insertion its value is under its name, and nothing else has changed. -/
theorem getText?_setText (m : List (Key × α)) (name : String) (v : α) (other : String) :
    getText? (setText m name v) other = if other = name then some v else getText? m other := by
  have hfirst : ∀ rest : List (Key × α),
      getText? ((.text name, v) :: rest) other = if other = name then some v else getText? rest other := by
    intro rest
    rw [getText?_cons, same_text]
    by_cases hother : name = other
    · rw [if_pos (beq_iff_eq.2 hother), if_pos hother.symm]
    · rw [if_neg (mt beq_iff_eq.1 hother), if_neg (Ne.symm hother)]
  induction m with
  | nil => exact hfirst []
  | cons e rest ih =>
    rw [setText, insert]
    by_cases he : e.1 = .text name
    · rw [if_pos (same_text_iff.2 he), he, hfirst, getText?_cons, he, same_text]
      by_cases hother : other = name
      · rw [if_pos hother, if_pos hother]
      · rw [if_neg hother, if_neg hother, if_neg (mt beq_iff_eq.1 (Ne.symm hother))]
    · rw [if_neg (mt same_text_iff.1 he), getText?_cons, getText?_cons]
      by_cases hother : e.1 = .text other
      · have hne : other ≠ name := fun h => he (h ▸ hother)
        rw [if_pos (same_text_iff.2 hother), if_pos (same_text_iff.2 hother), if_neg hne]
      · rw [if_neg (mt same_text_iff.1 hother), if_neg (mt same_text_iff.1 hother)]
        exact ih

/-- A name that is new comes last, and one that is there keeps its place. -/
theorem keys_setText_of_mem {name : String} (h : .text name ∈ keys m) (v : α) :
    keys (setText m name v) = keys m :=
  keys_insert (contains_text_iff.2 h) v

theorem keys_setText_of_notMem {name : String} (h : .text name ∉ keys m) (v : α) :
    keys (setText m name v) = keys m ++ [.text name] := by
  rw [setText, insert_of_absent (Bool.eq_false_iff.2 (mt contains_text_iff.1 h))]
  simp [keys]

/-- What is in a mapping after an insertion: the value that was inserted, under its key or the one that
it found, or what was there. -/
theorem mem_insert {e : Key × α} (h : e ∈ insert m key v) :
    e ∈ m ∨ e.2 = v ∧ (e.1 = key ∨ e.1 ∈ keys m ∧ e.1.same key = true) := by
  induction m with
  | nil =>
    obtain rfl : e = (key, v) := by simpa [insert] using h
    exact .inr ⟨rfl, .inl rfl⟩
  | cons first rest ih =>
    rw [insert] at h
    split at h
    next hsame =>
      rcases List.mem_cons.1 h with rfl | hrest
      · exact .inr ⟨rfl, .inr ⟨by simp [keys], hsame⟩⟩
      · exact .inl (List.mem_cons_of_mem _ hrest)
    next =>
      rcases List.mem_cons.1 h with rfl | hrest
      · exact .inl List.mem_cons_self
      · rcases ih hrest with hmem | ⟨hv, hkey⟩
        · exact .inl (List.mem_cons_of_mem _ hmem)
        · refine .inr ⟨hv, hkey.imp_right fun hfound => ⟨?_, hfound.2⟩⟩
          exact List.mem_cons_of_mem _ hfound.1

/-- A value that was inserted is there. -/
theorem exists_mem_insert : ∃ k, (k, v) ∈ insert m key v := by
  induction m with
  | nil => exact ⟨key, List.mem_cons_self⟩
  | cons e rest ih =>
    obtain ⟨k, w⟩ := e
    rw [insert]
    split
    next => exact ⟨k, List.mem_cons_self⟩
    next =>
      obtain ⟨found, hfound⟩ := ih
      exact ⟨found, List.mem_cons_of_mem _ hfound⟩

theorem mem_keys_insert {k : Key} (h : k ∈ keys (insert m key v)) : k ∈ keys m ∨ k = key := by
  cases hcontains : contains m key with
  | true => exact .inl (keys_insert hcontains v ▸ h)
  | false =>
    rw [insert_of_absent hcontains] at h
    simpa [keys] using h

theorem distinct_insert (h : Distinct m) (key : Key) (v : α) : Distinct (insert m key v) := by
  cases hcontains : contains m key with
  | true =>
    unfold Distinct
    rwa [keys_insert hcontains]
  | false =>
    rw [insert_of_absent hcontains]
    have hall := contains_eq_false.1 hcontains
    simp only [Distinct, keys, List.map_append, List.map_cons, List.map_nil]
    refine List.pairwise_append.2 ⟨h, List.pairwise_singleton _ _, fun k hk b hb => ?_⟩
    rw [List.mem_singleton.1 hb]
    exact hall k hk

theorem texts_insert (h : Texts m) (name : String) (v : α) : Texts (insert m (.text name) v) := by
  intro e he
  rcases mem_insert he with hmem | ⟨-, hkey | ⟨hmem, -⟩⟩
  · exact h e hmem
  · exact ⟨name, hkey⟩
  · obtain ⟨e', he', hkey⟩ := List.mem_map.1 hmem
    exact hkey ▸ h e' he'

theorem distinct_erase (h : Distinct m) (key : Key) : Distinct (erase m key) :=
  List.Pairwise.sublist (List.Sublist.map _ List.filter_sublist) h

/-- Entries whose keys differ are put one behind the other. -/
theorem update_of_distinct {entries : List (Key × α)} (h : Distinct (m ++ entries)) :
    update m entries = m ++ entries := by
  induction entries generalizing m with
  | nil => simp [update]
  | cons e rest ih =>
    have habsent : contains m e.1 = false := by
      refine contains_eq_false.2 fun k hk => ?_
      simp only [Distinct, keys, List.map_append, List.map_cons] at h
      exact (List.pairwise_append.1 h).2.2 k hk e.1 List.mem_cons_self
    have hsplit : m ++ e :: rest = (m ++ [e]) ++ rest := by simp
    have hstep : update m (e :: rest) = update (insert m e.1 e.2) rest := rfl
    rw [hstep, insert_of_absent habsent, hsplit]
    exact ih (hsplit ▸ h)

theorem ofEntries_of_distinct (h : Distinct m) : ofEntries m = m :=
  update_of_distinct h

theorem distinct_update {entries : List (Key × α)} (h : Distinct m) : Distinct (update m entries) := by
  induction entries generalizing m with
  | nil => exact h
  | cons e rest ih => exact ih (distinct_insert h e.1 e.2)

theorem distinct_ofEntries (entries : List (Key × α)) : Distinct (ofEntries entries) :=
  distinct_update List.Pairwise.nil

theorem mem_keys_update {entries : List (Key × α)} {k : Key} (h : k ∈ keys (update m entries)) :
    k ∈ keys m ∨ k ∈ keys entries := by
  induction entries generalizing m with
  | nil => exact .inl h
  | cons e rest ih =>
    rcases ih (m := insert m e.1 e.2) h with hinsert | hrest
    · rcases mem_keys_insert hinsert with hm | rfl
      · exact .inl hm
      · exact .inr List.mem_cons_self
    · exact .inr (List.mem_cons_of_mem _ hrest)

theorem getText?_insert_of_ne {name : String} (h : key ≠ .text name) :
    getText? (insert m key v) name = getText? m name := by
  have hkey : ¬ key.same (.text name) = true := mt same_text_iff.1 h
  induction m with
  | nil => rw [insert, getText?_cons, if_neg hkey]
  | cons e rest ih =>
    rw [insert]
    split
    next hsame =>
      have he : e.1 ≠ .text name := by
        intro he
        rw [he] at hsame
        exact h (eq_text_of_same hsame)
      rw [getText?_cons, getText?_cons, if_neg (mt same_text_iff.1 he), if_neg (mt same_text_iff.1 he)]
    next => rw [getText?_cons, getText?_cons, ih]

/-- An update leaves a name alone that the second mapping does not have. -/
theorem getText?_update_of_notMem {entries : List (Key × α)} {name : String} (h : .text name ∉ keys entries) :
    getText? (update m entries) name = getText? m name := by
  induction entries generalizing m with
  | nil => rfl
  | cons e rest ih =>
    obtain ⟨he, hrest⟩ := not_or.1 (mt List.mem_cons.2 h)
    exact (ih hrest).trans (getText?_insert_of_ne (Ne.symm he))

/-- A mapping has no key that none of the entries had that it was built of. -/
theorem mem_keys_ofEntries {entries : List (Key × α)} {k : Key} (h : k ∈ keys (ofEntries entries)) :
    k ∈ keys entries :=
  (mem_keys_update h).resolve_left List.not_mem_nil

/-! ### Mappings told by their look-ups -/

theorem Distinct.of_cons {e : Key × α} (h : Distinct (e :: m)) : Distinct m := (List.pairwise_cons.1 h).2

/-- The first key of a mapping does not come up again. -/
theorem Distinct.notMem_keys {name : String} (h : Distinct ((.text name, v) :: m)) : .text name ∉ keys m := by
  intro hmem
  have hdiffer := (List.pairwise_cons.1 h).1 _ hmem
  rw [same_text, beq_self_eq_true] at hdiffer
  cases hdiffer

theorem getText?_of_mem {name : String} (h : Distinct m) (hmem : (.text name, v) ∈ m) : getText? m name = some v := by
  induction m with
  | nil => cases hmem
  | cons e rest ih =>
    rw [getText?_cons]
    rcases List.mem_cons.1 hmem with rfl | hrest
    · rw [if_pos (same_text_iff.2 rfl)]
    · rw [if_neg ?_]
      · exact ih h.of_cons hrest
      · intro hsame
        obtain ⟨k, w⟩ := e
        obtain rfl : k = .text name := same_text_iff.1 hsame
        exact h.notMem_keys (List.mem_map_of_mem hrest)

/-- Two mappings with the same texts for keys that hold the same under each of them are one. -/
theorem eq_of_getText? {m n : List (Key × α)} (hdistinct : Distinct m) (htexts : Texts m) (hkeys : keys m = keys n)
    (hvalues : ∀ name, .text name ∈ keys m → getText? m name = getText? n name) : m = n := by
  induction m generalizing n with
  | nil => exact (List.map_eq_nil_iff.1 hkeys.symm).symm
  | cons e m ih =>
    cases n with
    | nil => cases hkeys
    | cons f n =>
      obtain ⟨k, v⟩ := e
      obtain ⟨l, w⟩ := f
      obtain ⟨rfl, hrest⟩ : k = l ∧ keys m = keys n := by simpa [keys] using hkeys
      obtain ⟨name, rfl⟩ : ∃ name, k = .text name := htexts _ List.mem_cons_self
      have hself : (Key.text name).same (.text name) = true := same_text_iff.2 rfl
      have hfirst : some v = some w := by
        simpa only [getText?_cons, if_pos hself] using hvalues name List.mem_cons_self
      have hothers : ∀ other, .text other ∈ keys m → getText? m other = getText? n other := by
        intro other hother
        have hdiffer : ¬(Key.text name).same (.text other) = true := by
          rw [same_text_iff]
          rintro heq
          exact hdistinct.notMem_keys (heq ▸ hother)
        have hvalue := hvalues other (List.mem_cons_of_mem _ hother)
        rwa [getText?_cons, getText?_cons, if_neg hdiffer, if_neg hdiffer] at hvalue
      have htail : m = n := ih hdistinct.of_cons (fun e he => htexts e (List.mem_cons_of_mem _ he)) hrest hothers
      rw [Option.some.inj hfirst, htail]

/-! ### First occurrences -/

section

variable {β : Type} [BEq β] [LawfulBEq β]

/-- What has come before does not come first again. -/
theorem eraseDups_concat_of_mem {bs : List β} {b : β} (h : b ∈ bs) : (bs ++ [b]).eraseDups = bs.eraseDups := by
  have hold : [b].removeAll bs = [] := List.filter_eq_nil_iff.2 (by simpa using h)
  rw [List.eraseDups_append, hold, List.eraseDups_nil, List.append_nil]

theorem eraseDups_concat_of_notMem {bs : List β} {b : β} (h : b ∉ bs) :
    (bs ++ [b]).eraseDups = bs.eraseDups ++ [b] := by
  have hnew : [b].removeAll bs = [b] := List.filter_eq_self.2 (by simpa using h)
  rw [List.eraseDups_append, hnew]
  rfl

/-- What comes several times in a row comes first once. -/
theorem eraseDups_replicate_append {n : Nat} {b : β} {bs : List β} (hn : n ≠ 0) (h : b ∉ bs) :
    (List.replicate n b ++ bs).eraseDups = b :: bs.eraseDups := by
  obtain ⟨k, rfl⟩ := Nat.exists_eq_succ_of_ne_zero hn
  have hself : (List.replicate k b).filter (fun c => !c == b) = [] := by simp
  have hothers : bs.filter (fun c => !c == b) = bs :=
    List.filter_eq_self.2 fun c hc => by simpa using ne_of_mem_of_not_mem hc h
  rw [List.replicate_succ, List.cons_append, List.eraseDups_cons, List.filter_append, hself, hothers, List.nil_append]

theorem nodup_eraseDups (bs : List β) : bs.eraseDups.Nodup := by
  induction bs using List.reverseRecOn with
  | nil => exact List.nodup_nil
  | append_singleton bs b ih =>
    by_cases hb : b ∈ bs
    · rwa [eraseDups_concat_of_mem hb]
    · rw [eraseDups_concat_of_notMem hb]
      have hnew : ∀ c ∈ bs, c ≠ b := fun c hc => ne_of_mem_of_not_mem hc hb
      exact List.nodup_append.2 ⟨ih, by simp, by simpa using hnew⟩

end

/-! ### Properties of all values -/

/-- Entries whose values all have a property, each under a text. -/
structure All (holds : α → Prop) (m : List (Key × α)) : Prop where
  texts : Texts m
  values : ∀ e ∈ m, holds e.2

variable {holds : α → Prop}

theorem All.insert (h : All holds m) (name : String) (hv : holds v) :
    All holds (insert m (.text name) v) := by
  refine ⟨texts_insert h.texts name v, fun e he => ?_⟩
  rcases mem_insert he with hmem | ⟨rfl, -⟩
  · exact h.values e hmem
  · exact hv

theorem All.update {entries : List (Key × α)} (h : All holds m) (hentries : All holds entries) :
    All holds (update m entries) := by
  induction entries generalizing m with
  | nil => exact h
  | cons e rest ih =>
    obtain ⟨name, hname⟩ := hentries.texts e List.mem_cons_self
    have hrest : All holds rest := ⟨fun e he => hentries.texts e (List.mem_cons_of_mem _ he),
      fun e he => hentries.values e (List.mem_cons_of_mem _ he)⟩
    have hinsert : All holds (Mapping.insert m e.1 e.2) := by
      rw [hname]
      exact h.insert name (hentries.values e List.mem_cons_self)
    exact ih hinsert hrest

theorem All.ofEntries {entries : List (Key × α)} (h : All holds entries) : All holds (ofEntries entries) :=
  All.update ⟨fun _ he => absurd he List.not_mem_nil, fun _ he => absurd he List.not_mem_nil⟩ h

/-! ### Two mappings with the same keys -/

/-- The same keys in the same order, with related values. -/
def Agree (rel : α → β → Prop) (m : List (Key × α)) (n : List (Key × β)) : Prop :=
  List.Forall₂ (fun e f => e.1 = f.1 ∧ rel e.2 f.2) m n

variable {rel : α → β → Prop} {n : List (Key × β)} {w : β}

theorem Agree.keys_eq (h : Agree rel m n) : keys m = keys n := by
  induction h with
  | nil => rfl
  | cons he _ ih => exact congrArg₂ List.cons he.1 ih

/-- What related values have in common they have in the same order. -/
theorem Agree.map_eq {γ : Type} {f : α → γ} {g : β → γ} (h : Agree rel m n) (hfg : ∀ v w, rel v w → f v = g w) :
    m.map (fun e => f e.2) = n.map fun e => g e.2 := by
  induction h with
  | nil => rfl
  | cons he _ ih => exact congrArg₂ List.cons (hfg _ _ he.2) ih

theorem Agree.get? (h : Agree rel m n) (key : Key) :
    Option.Rel rel (Mapping.get? m key) (Mapping.get? n key) := by
  induction h with
  | nil => exact .none
  | @cons e f m n he _ ih =>
    obtain ⟨k, v⟩ := e
    obtain ⟨k', w⟩ := f
    obtain ⟨rfl, hrel⟩ : k = k' ∧ rel v w := he
    simp only [Mapping.get?, List.find?_cons] at ih ⊢
    cases k.same key with
    | true => exact .some hrel
    | false => exact ih

theorem Agree.insert (h : Agree rel m n) (key : Key) (hvw : rel v w) :
    Agree rel (insert m key v) (Mapping.insert n key w) := by
  induction h with
  | nil => exact .cons ⟨rfl, hvw⟩ .nil
  | @cons e f m n he hmn ih =>
    obtain ⟨k, a⟩ := e
    obtain ⟨k', b⟩ := f
    obtain ⟨rfl, hrel⟩ : k = k' ∧ rel a b := he
    simp only [Mapping.insert]
    split
    next => exact .cons ⟨rfl, hvw⟩ hmn
    next => exact .cons ⟨rfl, hrel⟩ ih

theorem Agree.erase (h : Agree rel m n) (key : Key) : Agree rel (erase m key) (Mapping.erase n key) := by
  induction h with
  | nil => exact .nil
  | @cons e f m n he _ ih =>
    obtain ⟨k, a⟩ := e
    obtain ⟨k', b⟩ := f
    obtain ⟨rfl, hrel⟩ : k = k' ∧ rel a b := he
    simp only [Mapping.erase, List.filter_cons] at ih ⊢
    cases k.same key with
    | true => exact ih
    | false => exact .cons ⟨rfl, hrel⟩ ih

end Foreach.Mapping

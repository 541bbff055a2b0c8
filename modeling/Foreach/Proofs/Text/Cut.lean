import Foreach.Text.Blank
import Foreach.Text.Split
import Mathlib.Data.List.TakeWhile

/-!
Texts that are cut at a character, once or wherever it comes up, or at their ends.
-/

namespace Foreach.Text

/-! ### The first place of a character -/

theorem takeWhile_ne_append {c : Char} {cs : List Char} (h : c ∉ cs) (rest : List Char) :
    (cs ++ c :: rest).takeWhile (· != c) = cs := by
  rw [List.takeWhile_append_of_pos fun d hd => bne_iff_ne.2 (ne_of_mem_of_not_mem hd h)]
  simp

theorem dropWhile_ne_append {c : Char} {cs : List Char} (h : c ∉ cs) (rest : List Char) :
    (cs ++ c :: rest).dropWhile (· != c) = c :: rest := by
  rw [List.dropWhile_append_of_pos fun d hd => bne_iff_ne.2 (ne_of_mem_of_not_mem hd h)]
  simp

/-! ### Every place of a character -/

/-- The parts of a text between separators: there is at least one, none has a separator in it, and with
separators between them they make up the text. -/
structure IsSplit (separator : Char) (cs : List Char) (parts : List (List Char)) : Prop where
  nonempty : parts ≠ []
  bare : ∀ part ∈ parts, separator ∉ part
  joined : [separator].intercalate parts = cs

theorem split_eq_splitOn (separator : Char) (cs : List Char) : split separator cs = cs.splitOn separator := by
  induction cs with
  | nil => rfl
  | cons c cs ih =>
    rw [split, List.splitOn_cons_eq_if_modifyHead]
    by_cases hc : c = separator
    · rw [if_pos hc, if_pos (beq_iff_eq.2 hc), ih]
    · rw [if_neg hc, if_neg (mt beq_iff_eq.1 hc), ih]
      cases hparts : cs.splitOn separator with
      | nil => exact absurd hparts (List.splitOn_ne_nil separator cs)
      | cons part parts => rfl

/-- No separator is left in the parts. -/
theorem not_mem_of_mem_split {separator : Char} {cs part : List Char} (h : part ∈ split separator cs) :
    separator ∉ part := by
  induction cs generalizing part with
  | nil =>
    obtain rfl := List.mem_singleton.1 h
    exact List.not_mem_nil
  | cons c cs ih =>
    rw [split] at h
    split at h
    next => exact (List.mem_cons.1 h).elim (fun heq => heq ▸ List.not_mem_nil) ih
    next hc =>
      split at h
      next first parts hparts =>
        rw [hparts] at ih
        rcases List.mem_cons.1 h with rfl | hpart
        · exact List.not_mem_cons_of_ne_of_not_mem (Ne.symm hc) (ih List.mem_cons_self)
        · exact ih (List.mem_cons_of_mem first hpart)
      next =>
        obtain rfl := List.mem_singleton.1 h
        exact List.not_mem_cons_of_ne_of_not_mem (Ne.symm hc) List.not_mem_nil

theorem isSplit_iff {separator : Char} {cs : List Char} {parts : List (List Char)} :
    IsSplit separator cs parts ↔ parts = split separator cs := by
  constructor
  · rintro ⟨hnonempty, hbare, rfl⟩
    rw [split_eq_splitOn, List.splitOn_intercalate separator hbare hnonempty]
  · rintro rfl
    refine ⟨?_, fun part => not_mem_of_mem_split, ?_⟩
    · rw [split_eq_splitOn]
      exact List.splitOn_ne_nil separator cs
    · rw [split_eq_splitOn, List.intercalate_splitOn]

/-- Texts with a separator between them have the parts of the one and then of the other. -/
theorem split_append (separator : Char) (cs ds : List Char) :
    split separator (cs ++ separator :: ds) = split separator cs ++ split separator ds := by
  simp only [split_eq_splitOn, List.splitOn_append_cons_self]

theorem split_ne_nil (separator : Char) (cs : List Char) : split separator cs ≠ [] :=
  (isSplit_iff.2 rfl : IsSplit separator cs _).nonempty

theorem split_injective (separator : Char) : Function.Injective (split separator) := by
  intro cs ds h
  rw [← (isSplit_iff.2 rfl : IsSplit separator cs _).joined, h, (isSplit_iff.2 rfl : IsSplit separator ds _).joined]

theorem split_of_not_mem {separator : Char} {cs : List Char} (h : separator ∉ cs) :
    split separator cs = [cs] :=
  (isSplit_iff.1 ⟨List.cons_ne_nil _ _, List.forall_mem_singleton.2 h, List.intercalate_singleton⟩).symm

theorem eq_of_split_isPrefix {separator : Char} {cs ds : List Char}
    (h : split separator cs <+: split separator ds) (h' : split separator ds <+: split separator cs) : cs = ds :=
  split_injective separator (h.eq_of_length_le h'.length_le)

/-- The parts of a text begin with those of another just if that is the whole text or ends at a separator. -/
theorem split_isPrefix_iff {separator : Char} {cs ds : List Char} :
    split separator ds <+: split separator cs ↔ ds = cs ∨ ∃ rest, cs = ds ++ separator :: rest := by
  constructor
  · rintro ⟨parts, hparts⟩
    by_cases hnone : parts = []
    · rw [hnone, List.append_nil] at hparts
      exact .inl (split_injective separator hparts)
    · have hbare : ∀ part ∈ parts, separator ∉ part := by
        intro part hpart
        have hmem : part ∈ split separator cs := by
          rw [← hparts]
          exact List.mem_append_right _ hpart
        exact not_mem_of_mem_split hmem
      have hrest := isSplit_iff.1 ⟨hnone, hbare, rfl⟩
      refine .inr ⟨[separator].intercalate parts, split_injective separator ?_⟩
      rw [split_append, ← hrest, hparts]
  · rintro (rfl | ⟨rest, rfl⟩)
    · exact List.prefix_rfl
    · exact ⟨split separator rest, (split_append separator ds rest).symm⟩

/-! ### Both ends -/

/-- No character of the class stands at either end. -/
def Sheds (p : Char → Bool) (cs : List Char) : Prop :=
  ∀ c, cs.head? = some c ∨ cs.getLast? = some c → p c = false

namespace Sheds

variable {p : Char → Bool} {cs : List Char}

theorem dropWhile (h : Sheds p cs) : cs.dropWhile p = cs := by
  cases cs with
  | nil => rfl
  | cons c cs => exact List.dropWhile_cons_of_neg (by simp [h c (.inl rfl)])

theorem reverse (h : Sheds p cs) : Sheds p cs.reverse := by
  intro c hc
  rw [List.head?_reverse, List.getLast?_reverse] at hc
  exact h c hc.symm

theorem strip (h : Sheds isBlank cs) : Text.strip cs = cs := by
  rw [Text.strip, dropEndWhile, h.dropWhile, h.reverse.dropWhile, List.reverse_reverse]

/-- A text of two characters or more is told by the first and the last of them. -/
theorem between {c d : Char} (hc : p c = false) (hd : p d = false) (inner : List Char) :
    Sheds p (c :: (inner ++ [d])) := by
  rintro e (hfirst | hlast)
  · cases hfirst
    exact hc
  · rw [List.getLast?_cons, List.getLast?_concat, Option.getD_some] at hlast
    cases hlast
    exact hd

/-- Blanks around a text that has none at its ends are stripped, and nothing else. -/
theorem strip_surrounded (h : Sheds isBlank cs) {before after : List Char}
    (hbefore : ∀ c ∈ before, isBlank c = true) (hafter : ∀ c ∈ after, isBlank c = true) :
    Text.strip (before ++ (cs ++ after)) = cs := by
  rw [Text.strip, List.dropWhile_append_of_pos hbefore]
  cases cs with
  | nil => rw [List.nil_append, List.dropWhile_eq_nil_iff.2 hafter]; rfl
  | cons c cs =>
    have hfirst : ¬isBlank c = true := by simp [h c (.inl rfl)]
    rw [List.cons_append, List.dropWhile_cons_of_neg hfirst, dropEndWhile, ← List.cons_append,
      List.reverse_append, List.dropWhile_append_of_pos (by simpa using hafter), h.reverse.dropWhile,
      List.reverse_reverse]

end Sheds

/-- What is left of a text is a part of it. -/
theorem strip_isInfix (cs : List Char) : strip cs <:+: cs := by
  have hend : dropEndWhile isBlank (cs.dropWhile isBlank) <+: cs.dropWhile isBlank := by
    rw [dropEndWhile, ← List.reverse_suffix, List.reverse_reverse]
    exact List.dropWhile_suffix _
  exact hend.isInfix.trans (List.dropWhile_suffix _).isInfix

end Foreach.Text

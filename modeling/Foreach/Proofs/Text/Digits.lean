import Foreach.Text.Digits
import Mathlib.Algebra.Group.Nat.Defs
import Mathlib.Data.List.Induction
import Mathlib.Data.List.TakeWhile

/-!
What decimal digits stand for, and where they end.
-/

namespace Foreach.Text

theorem numeral_append (cs ds : List Char) :
    numeral (cs ++ ds) = 10 ^ ds.length * numeral cs + numeral ds := by
  calc numeral (cs ++ ds) = Nat.ofDigitChars 10 ds (numeral cs) := Nat.ofDigitChars_append 0
    _ = 10 ^ ds.length * numeral cs + numeral ds := Nat.ofDigitChars_eq_ofDigitChars_zero

theorem numeral_toDigits (n : Nat) : numeral (Nat.toDigits 10 n) = n :=
  Nat.ofDigitChars_ten_toDigits

theorem numeral_replicate_zero (n : Nat) : numeral (List.replicate n '0') = 0 :=
  Nat.ofDigitChars_replicate_zero

/-- Zeros in front count for nothing. -/
theorem numeral_zeros_append (n : Nat) (ds : List Char) :
    numeral (List.replicate n '0' ++ ds) = numeral ds := by
  simp [numeral_append, numeral_replicate_zero]

/-- A zero behind makes ten times as much. -/
theorem numeral_append_zeros (ds : List Char) (n : Nat) :
    numeral (ds ++ List.replicate n '0') = numeral ds * 10 ^ n := by
  simp [numeral_append, numeral_replicate_zero, Nat.mul_comm]

theorem numeral_padded (width n : Nat) : numeral (padded 10 width n) = n := by
  rw [padded, numeral_zeros_append, numeral_toDigits]

/-- A numeral that fits is exactly as wide as it is to be. -/
theorem length_padded {width n : Nat} (hwidth : 0 < width) (h : n < 10 ^ width) :
    (padded 10 width n).length = width := by
  have hle := (Nat.length_toDigits_le_iff (by decide : 1 < 10) hwidth).2 h
  simp only [padded, List.length_append, List.length_replicate]
  omega

/-- Characters that are decimal digits. -/
def AllDigits (cs : List Char) : Prop := ∀ c ∈ cs, isDigit c = true

theorem AllDigits.append {cs ds : List Char} (hcs : AllDigits cs) (hds : AllDigits ds) :
    AllDigits (cs ++ ds) := by
  intro c hc
  exact (List.mem_append.1 hc).elim (hcs c) (hds c)

theorem allDigits_toDigits (n : Nat) : AllDigits (Nat.toDigits 10 n) :=
  fun _ hc => Nat.isDigit_of_mem_toDigits (by decide) (by decide) hc

theorem allDigits_replicate (n : Nat) : AllDigits (List.replicate n '0') := by
  intro c hc
  rw [List.eq_of_mem_replicate hc]
  rfl

theorem allDigits_padded (width n : Nat) : AllDigits (padded 10 width n) :=
  (allDigits_replicate _).append (allDigits_toDigits n)

/-- The digits, of which there is at least one, are those of this number, perhaps with zeros in front: another
digit behind them makes it ten times as much and that digit more. -/
inductive Denotes : List Char → Nat → Prop
  | digit {d : Nat} (hd : d < 10) : Denotes [d.digitChar] d
  | more {cs : List Char} {n d : Nat} (hcs : Denotes cs n) (hd : d < 10) :
      Denotes (cs ++ [d.digitChar]) (10 * n + d)

theorem digitValue_digitChar {d : Nat} (hd : d < 10) : digitValue d.digitChar = d :=
  Nat.toNat_digitChar_sub_48_of_lt_ten hd

theorem isDigit_digitChar {d : Nat} (hd : d < 10) : isDigit d.digitChar = true := by
  have hdigit : d.digitChar.isDigit = true := by rw [Nat.isDigit_digitChar, decide_eq_true hd]
  exact hdigit

theorem exists_digitChar {c : Char} (h : isDigit c = true) : ∃ d < 10, c = d.digitChar := by
  obtain ⟨hlow, hhigh⟩ := Char.isDigit_iff_toNat.1 h
  have hzero : '0'.toNat = 48 := rfl
  have hnine : '9'.toNat = 57 := rfl
  have hd : c.toNat - 48 < 10 := by omega
  refine ⟨c.toNat - 48, hd, Char.toNat_inj.1 ?_⟩
  rw [Nat.toNat_digitChar_of_lt_ten hd]
  omega

theorem denotes_iff {cs : List Char} {n : Nat} : Denotes cs n ↔ cs ≠ [] ∧ AllDigits cs ∧ numeral cs = n := by
  constructor
  · intro h
    induction h with
    | digit hd =>
      refine ⟨List.cons_ne_nil _ _, List.forall_mem_singleton.2 (isDigit_digitChar hd), ?_⟩
      simp [numeral, digitValue_digitChar hd]
    | more _ hd ih =>
      obtain ⟨-, hdigits, rfl⟩ := ih
      refine ⟨by simp, hdigits.append (List.forall_mem_singleton.2 (isDigit_digitChar hd)), ?_⟩
      simp [numeral, digitValue_digitChar hd]
  · rintro ⟨hne, hdigits, rfl⟩
    induction cs using List.reverseRecOn with
    | nil => exact absurd rfl hne
    | append_singleton cs c ih =>
      obtain ⟨d, hd, rfl⟩ := exists_digitChar (hdigits c (by simp))
      have hvalue : numeral (cs ++ [d.digitChar]) = 10 * numeral cs + d := by
        simp [numeral, digitValue_digitChar hd]
      rw [hvalue]
      by_cases hcs : cs = []
      · subst hcs
        simpa [numeral] using Denotes.digit hd
      · exact .more (ih hcs fun e he => hdigits e (List.mem_append_left _ he)) hd

theorem Denotes.unique {cs : List Char} {m n : Nat} (hm : Denotes cs m) (hn : Denotes cs n) : m = n := by
  obtain ⟨-, -, rfl⟩ := denotes_iff.1 hm
  exact (denotes_iff.1 hn).2.2

theorem denotes_toDigits (n : Nat) : Denotes (Nat.toDigits 10 n) n :=
  denotes_iff.2 ⟨Nat.toDigits_ne_nil, allDigits_toDigits n, numeral_toDigits n⟩

/-- The digits of a number are its numeral behind some zeros, or behind none. -/
theorem denotes_iff_zeros {cs : List Char} {n : Nat} :
    Denotes cs n ↔ ∃ zeros, cs = List.replicate zeros '0' ++ Nat.toDigits 10 n := by
  constructor
  · intro h
    induction h with
    | @digit d hd => exact ⟨0, by simp [Nat.toDigits_of_lt_base hd]⟩
    | @more cs n d hcs hd ih =>
      obtain ⟨zeros, rfl⟩ := ih
      rcases Nat.eq_zero_or_pos n with rfl | hn
      · refine ⟨zeros + 1, ?_⟩
        simp [Nat.toDigits_of_lt_base hd, List.replicate_succ']
      · exact ⟨zeros, by rw [List.append_assoc, ← Nat.toDigits_of_lt_base hd,
          Nat.toDigits_append_toDigits (by decide) hn hd]⟩
  · rintro ⟨zeros, rfl⟩
    refine denotes_iff.2 ⟨?_, (allDigits_replicate zeros).append (allDigits_toDigits n), ?_⟩
    · exact List.append_ne_nil_of_right_ne_nil _ Nat.toDigits_ne_nil
    · rw [numeral_zeros_append, numeral_toDigits]

/-- A text in front of which no digit of a number can stand without being the number's last one. -/
def EndsDigits (rest : List Char) : Prop := ∀ c ∈ rest.head?, isDigit c = false

theorem endsDigits_cons {c : Char} {rest : List Char} (h : isDigit c = false) :
    EndsDigits (c :: rest) := by
  simpa [EndsDigits] using h

theorem takeWhile_isDigit {ds rest : List Char} (hds : AllDigits ds) (hrest : EndsDigits rest) :
    (ds ++ rest).takeWhile isDigit = ds := by
  rw [List.takeWhile_append_of_pos hds]
  cases rest with
  | nil => simp
  | cons c rest => rw [List.takeWhile_cons_of_neg (by simp [hrest c rfl]), List.append_nil]

theorem dropWhile_isDigit {ds rest : List Char} (hds : AllDigits ds) (hrest : EndsDigits rest) :
    (ds ++ rest).dropWhile isDigit = rest := by
  rw [List.dropWhile_append_of_pos hds]
  cases rest with
  | nil => rfl
  | cons c rest => rw [List.dropWhile_cons_of_neg (by simp [hrest c rfl])]

/-- No zero stands in front of the numeral of a positive number. -/
theorem head?_toDigits_ne_zero {n : Nat} (h : n ≠ 0) : (Nat.toDigits 10 n).head? ≠ some '0' := by
  induction n using Nat.strongRecOn with
  | ind n ih =>
    rw [Nat.toDigits_eq_if (by decide)]
    split
    next => simpa using h
    next hge =>
      have hpositive : n / 10 ≠ 0 := by omega
      have hhead := ih (n / 10) (by omega) hpositive
      rwa [List.head?_append, Option.or_of_isSome (List.isSome_head?.2 Nat.toDigits_ne_nil)]

end Foreach.Text

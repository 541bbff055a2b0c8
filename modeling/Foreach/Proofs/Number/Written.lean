import Foreach.Number.Numeral
import Foreach.Proofs.Number.Shortest
import Foreach.Proofs.Text.Digits

/-!
How a number is written.

A number is written as a numeral: perhaps a sign, digits without a zero in front, perhaps a point with
digits behind it, perhaps an exponent. The numeral that a number is written as has the value of its
shortest decimal, so that it denotes the number.
-/

namespace Foreach

namespace Numeral

/-- The decimal that a numeral stands for. -/
def decimal (n : Numeral) : Decimal :=
  ⟨Text.numeral (n.whole ++ n.fraction), n.exponent.getD 0 - n.fraction.length⟩

theorem toBinary64_eq (n : Numeral) : n.toBinary64 = n.decimal.toBinary64 n.negative := rfl

def signText (n : Numeral) : List Char := if n.negative then ['-'] else []

def fractionText (n : Numeral) : List Char := if n.fraction = [] then [] else '.' :: n.fraction

def exponentText (n : Numeral) : List Char :=
  n.exponent.elim [] fun e => 'e' :: (if e < 0 then '-' else '+') :: Text.padded 10 2 e.natAbs

/-- The text of a numeral. -/
def text (n : Numeral) : List Char := n.signText ++ n.whole ++ n.fractionText ++ n.exponentText

/-- A numeral as numbers are written: digits in front of the point, a zero only as the first and last of
them, and digits behind it. -/
structure Proper (n : Numeral) : Prop where
  whole : Text.AllDigits n.whole
  whole_ne_nil : n.whole ≠ []
  whole_ne_zero : ∀ c cs, n.whole ≠ '0' :: c :: cs
  fraction : Text.AllDigits n.fraction

end Numeral

namespace FloatText

variable {digits : List Char} {leading : Int} {negative : Bool}

/-- The positional form of digits, as a numeral. -/
def positionalNumeral (negative : Bool) (digits : List Char) (leading : Int) : Numeral :=
  if leading < 0 then
    ⟨negative, ['0'], List.replicate (-leading - 1).toNat '0' ++ digits, none⟩
  else if digits.length ≤ leading.toNat + 1 then
    ⟨negative, digits ++ List.replicate (leading.toNat + 1 - digits.length) '0', ['0'], none⟩
  else ⟨negative, digits.take (leading.toNat + 1), digits.drop (leading.toNat + 1), none⟩

/-- The scientific form of digits, as a numeral. -/
def scientificNumeral (negative : Bool) (digits : List Char) (leading : Int) : Numeral :=
  ⟨negative, digits.take 1, digits.drop 1, some leading⟩

theorem text_positionalNumeral (hdigits : digits ≠ []) :
    (positionalNumeral negative digits leading).text =
      (if negative then ['-'] else []) ++ positional digits leading := by
  unfold positional positionalNumeral
  split
  next =>
    simp [Numeral.text, Numeral.signText, Numeral.fractionText, Numeral.exponentText, hdigits]
  next =>
    split
    next hle =>
      simp [Numeral.text, Numeral.signText, Numeral.fractionText, Numeral.exponentText,
        List.take_of_length_le hle, List.drop_eq_nil_of_le hle]
    next hlt =>
      obtain ⟨c, cs, hdrop⟩ : ∃ c cs, digits.drop (leading.toNat + 1) = c :: cs :=
        List.ne_nil_iff_exists_cons.1 (by simp; omega)
      have hzeros : leading.toNat + 1 - digits.length = 0 := by omega
      simp [Numeral.text, Numeral.signText, Numeral.fractionText, Numeral.exponentText, hdrop, hzeros]

theorem text_scientificNumeral :
    (scientificNumeral negative digits leading).text =
      (if negative then ['-'] else []) ++ scientific digits leading := by
  unfold scientific scientificNumeral
  rcases digits with _ | ⟨d, _ | ⟨e, rest⟩⟩ <;>
    simp [Numeral.text, Numeral.signText, Numeral.fractionText, Numeral.exponentText]

theorem positionalNumeral_proper (hdigits : Text.AllDigits digits) (hne : digits ≠ [])
    (hzero : digits.head? ≠ some '0' ∨ digits = ['0'] ∧ leading ≤ 0) :
    (positionalNumeral negative digits leading).Proper := by
  have hahead {cs : List Char} {d : Char} {ds : List Char} (hcs : cs.head? = digits.head?)
      (h0 : digits.head? ≠ some '0') : cs ≠ '0' :: d :: ds := by
    rintro rfl
    exact h0 hcs.symm
  unfold positionalNumeral
  split
  next =>
    exact ⟨Text.allDigits_replicate 1, by simp, by simp, (Text.allDigits_replicate _).append hdigits⟩
  next hleading =>
    split
    next hle =>
      refine ⟨hdigits.append (Text.allDigits_replicate _), by simp [hne], fun d ds => ?_,
        Text.allDigits_replicate 1⟩
      obtain h0 | ⟨rfl, hlow⟩ := hzero
      · exact hahead (List.head?_append_of_ne_nil _ hne) h0
      · obtain rfl : leading = 0 := by omega
        simp
    next hlt =>
      refine ⟨fun c hc => hdigits c (List.mem_of_mem_take hc), by simp [hne], fun d ds => ?_,
        fun c hc => hdigits c (List.mem_of_mem_drop hc)⟩
      obtain h0 | ⟨rfl, hlow⟩ := hzero
      · exact hahead (by simp [List.head?_take]) h0
      · simp at hlt

theorem scientificNumeral_proper (hdigits : Text.AllDigits digits) (hne : digits ≠ []) :
    (scientificNumeral negative digits leading).Proper := by
  obtain ⟨d, ds, rfl⟩ := List.ne_nil_iff_exists_cons.1 hne
  exact ⟨fun c hc => hdigits c (List.mem_of_mem_take hc), by simp [scientificNumeral], by simp [scientificNumeral],
    fun c hc => hdigits c (List.mem_of_mem_drop hc)⟩

/-- Digits with a point in front of the last `places` of them. -/
theorem decimal_eq {n : Numeral} {places : Int} (hdigits : Text.numeral (n.whole ++ n.fraction) = Text.numeral digits)
    (hexponent : n.exponent.getD 0 - n.fraction.length = places) :
    n.decimal = ⟨Text.numeral digits, places⟩ := by
  rw [Numeral.decimal, hdigits, hexponent]

/-- The places of the digits are told by the exponent of the first one. -/
theorem value_positionalNumeral :
    (positionalNumeral negative digits leading).decimal.value =
      (⟨Text.numeral digits, leading + 1 - digits.length⟩ : Decimal).value := by
  unfold positionalNumeral
  split
  next hneg =>
    refine congrArg Decimal.value (decimal_eq ?_ ?_)
    · rw [← List.append_assoc]
      exact Text.numeral_zeros_append ((-leading - 1).toNat + 1) digits
    · simp
      omega
  next hleading =>
    split
    next hle =>
      have hzeros : (leading + 1 - digits.length : Int) = (leading.toNat + 1 - digits.length : Nat) := by omega
      rw [hzeros]
      generalize leading.toNat + 1 - digits.length = zeros
      have hdigits : Text.numeral (digits ++ List.replicate zeros '0' ++ ['0'])
          = Text.numeral digits * 10 ^ (zeros + 1) := by
        rw [List.append_assoc, ← List.replicate_succ', Text.numeral_append_zeros]
      simp only [Numeral.decimal, Decimal.value, hdigits, Option.getD_none]
      push_cast
      rw [pow_succ]
      norm_num
      ring
    next hlt =>
      refine congrArg Decimal.value (decimal_eq ?_ ?_)
      · simp
      · simp
        omega

theorem value_scientificNumeral (hne : digits ≠ []) :
    (scientificNumeral negative digits leading).decimal.value =
      (⟨Text.numeral digits, leading + 1 - digits.length⟩ : Decimal).value := by
  have hpos := List.length_pos_iff.2 hne
  refine congrArg Decimal.value (decimal_eq ?_ ?_)
  · rw [scientificNumeral, List.take_append_drop]
  · simp [scientificNumeral]
    omega

/-- The numeral that a decimal is written as. -/
def numeralOf (t : FloatText) (negative : Bool) (d : Decimal) : Numeral :=
  let digits := Nat.toDigits 10 d.coefficient
  let leading : Int := d.exponent + digits.length - 1
  if t.lowest ≤ leading ∧ leading ≤ t.highest then positionalNumeral negative digits leading
  else scientificNumeral negative digits leading

theorem text_numeralOf (t : FloatText) (negative : Bool) (d : Decimal) :
    (t.numeralOf negative d).text = (if negative then ['-'] else []) ++ t.ofDecimal d := by
  unfold numeralOf ofDecimal
  dsimp only
  split
  · exact text_positionalNumeral Nat.toDigits_ne_nil
  · exact text_scientificNumeral

theorem numeralOf_negative (t : FloatText) (negative : Bool) (d : Decimal) :
    (t.numeralOf negative d).negative = negative := by
  unfold numeralOf positionalNumeral scientificNumeral
  dsimp only
  split
  · split
    · rfl
    · split <;> rfl
  · rfl

theorem numeralOf_proper (t : FloatText) (negative : Bool) {d : Decimal}
    (hd : d.coefficient ≠ 0 ∨ d = ⟨0, 0⟩) : (t.numeralOf negative d).Proper := by
  unfold numeralOf
  dsimp only
  split
  · refine positionalNumeral_proper (Text.allDigits_toDigits _) Nat.toDigits_ne_nil ?_
    obtain h0 | rfl := hd
    · exact .inl (Text.head?_toDigits_ne_zero h0)
    · exact .inr ⟨rfl, by decide⟩
  · exact scientificNumeral_proper (Text.allDigits_toDigits _) Nat.toDigits_ne_nil

/-- A number with a fraction or an exponent is not taken for a whole one. -/
theorem numeralOf_marked (t : FloatText) (negative : Bool) (d : Decimal) :
    (t.numeralOf negative d).fraction ≠ [] ∨ (t.numeralOf negative d).exponent ≠ none := by
  have hne : Nat.toDigits 10 d.coefficient ≠ [] := Nat.toDigits_ne_nil
  unfold numeralOf positionalNumeral scientificNumeral
  dsimp only
  split
  · left
    split
    · simp [hne]
    · split
      · simp
      · simp
        omega
  · right
    simp

theorem value_numeralOf (t : FloatText) (negative : Bool) (d : Decimal) :
    (t.numeralOf negative d).decimal.value = d.value := by
  have hplaces (n : Nat) : d.exponent + n - 1 + 1 - n = d.exponent := by omega
  unfold numeralOf
  dsimp only
  split
  · rw [value_positionalNumeral, Text.numeral_toDigits, hplaces]
  · rw [value_scientificNumeral Nat.toDigits_ne_nil, Text.numeral_toDigits, hplaces]

/-- A finite number is written as a numeral. -/
theorem render_finite (t : FloatText) (x : Binary64.Finite) :
    t.render (.finite x) = (t.numeralOf x.negative (Decimal.shortest x)).text := by
  rw [text_numeralOf]
  rfl

/-- The numeral that a finite number is written as denotes the number. -/
theorem toBinary64_numeralOf (t : FloatText) (x : Binary64.Finite) :
    (t.numeralOf x.negative (Decimal.shortest x)).toBinary64 = .finite x := by
  rw [Numeral.toBinary64_eq, numeralOf_negative]
  exact Decimal.toBinary64_of_value x.negative (value_numeralOf t x.negative _)

end FloatText
end Foreach

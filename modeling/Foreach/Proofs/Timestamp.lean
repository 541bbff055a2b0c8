import Foreach.Proofs.Text.Digits
import Foreach.Timestamp.Reader

/-!
A timestamp is read from its document as what it was: its reading to the microsecond, and its offset.
-/

namespace Foreach.Timestamp

open Text (padded isDigit)

variable {n width : Nat} {r : List Char}

theorem takeDigits_padded (hwidth : 0 < width) (h : n < 10 ^ width) :
    takeDigits width (padded 10 width n ++ r) = some (n, r) := by
  have hlength := Text.length_padded hwidth h
  have htake : (padded 10 width n ++ r).take width = padded 10 width n := List.take_left' hlength
  have hdrop : (padded 10 width n ++ r).drop width = r := List.drop_left' hlength
  have hdigits : (padded 10 width n).all isDigit = true := List.all_eq_true.2 (Text.allDigits_padded width n)
  simp only [takeDigits, htake, hdrop, hlength, hdigits, Text.numeral_padded, and_self, if_true]

theorem after_cons (c : Char) (r : List Char) : after c (c :: r) = some r := if_pos rfl

theorem takeDate_text {d : Calendar.Date} (hyear : d.year < 10000) (hmonth : d.month < 100) (hday : d.day < 100) :
    takeDate (d.text ++ r) = some (d, r) := by
  simp only [takeDate, Calendar.Date.text, List.append_assoc, List.cons_append]
  rw [takeDigits_padded (by decide) hyear]
  simp only [Option.bind_some, after_cons]
  rw [takeDigits_padded (by decide) hmonth]
  simp only [Option.bind_some, after_cons]
  rw [takeDigits_padded (by decide) hday]
  rfl

/-- What can stand behind a clock reading. -/
def EndsClock (r : List Char) : Prop := ∀ c ∈ r.head?, isDigit c = false ∧ c ≠ '.' ∧ c ≠ ','

theorem microseconds_padded (h : n < 10 ^ 6) : microseconds (padded 10 6 n) = n := by
  have hlength := Text.length_padded (by decide : 0 < 6) h
  rw [microseconds, List.take_left' hlength, Text.numeral_padded]

/-- Seconds are read up to their end, with the microseconds if there are any. -/
theorem takeSeconds_text {second micros : Nat} (hsecond : second < 100) (hmicros : micros < 10 ^ 6)
    (hr : EndsClock r) :
    takeSeconds (':' :: (padded 10 2 second ++
        ((if micros = 0 then [] else '.' :: padded 10 6 micros) ++ r))) = some ((second, micros), r) := by
  simp only [takeSeconds]
  rw [takeDigits_padded (by decide) hsecond, Option.bind_some]
  by_cases h0 : micros = 0
  · rw [if_pos h0, List.nil_append, h0]
    cases r with
    | nil => rfl
    | cons c r =>
      obtain ⟨-, hpoint, hcomma⟩ := hr c rfl
      simp [hpoint, hcomma]
  · rw [if_neg h0, List.cons_append]
    have hends : Text.EndsDigits r := fun c hc => (hr c hc).1
    have htake := Text.takeWhile_isDigit (Text.allDigits_padded 6 micros) hends
    have hdrop := Text.dropWhile_isDigit (Text.allDigits_padded 6 micros) hends
    have hvalue := microseconds_padded hmicros
    have hne : padded 10 6 micros ≠ [] := by simp [padded]
    generalize padded 10 6 micros = fraction at *
    obtain ⟨d, ds, rfl⟩ := List.ne_nil_iff_exists_cons.1 hne
    simp only [htake, hdrop, hvalue, true_or, if_true]

theorem endsClock_offsetMark (t : Timestamp) : EndsClock t.offsetMark := by
  unfold offsetMark offsetText
  split
  · simp [EndsClock]; decide
  · dsimp only
    split <;> simp [EndsClock] <;> decide

/-- An offset is read from its hours and minutes. -/
theorem offset?_sign {sign : Char} {minutes : Nat} (hsign : sign = '+' ∨ sign = '-') (h : minutes < 1440) :
    offset? (sign :: (padded 10 2 (minutes / 60) ++ ':' :: padded 10 2 (minutes % 60))) =
      some (if isMinus sign then -(minutes : Int) else minutes) := by
  have hhours : takeDigits 2 (padded 10 2 (minutes / 60) ++ ':' :: padded 10 2 (minutes % 60)) =
      some (minutes / 60, ':' :: padded 10 2 (minutes % 60)) := takeDigits_padded (by decide) (by omega)
  have hlast : takeDigits 2 (padded 10 2 (minutes % 60)) = some (minutes % 60, []) := by
    simpa using takeDigits_padded (n := minutes % 60) (r := []) (by decide : 0 < 2) (by omega)
  have htotal : ((minutes / 60 : Nat) : Int) * 60 + (minutes % 60 : Nat) = minutes := by omega
  have hroom : minutes % 60 < 60 ∧ minutes / 60 < 24 := by omega
  have hmark : sign = '+' ∨ isMinus sign = true := hsign.imp_right fun hminus => by rw [hminus]; rfl
  have hne : sign ≠ 'Z' ∧ sign ≠ 'z' := by rcases hsign with rfl | rfl <;> decide
  rw [offset?, if_pos hmark, hhours]
  · simp only [Option.bind_some, after_cons, Option.getD_some, hlast, hroom, htotal, and_self, if_true]
  · intro hZ
    exact absurd hZ hne.1
  · intro hz
    exact absurd hz hne.2

theorem offset?_offsetMark (t : Timestamp) : offset? t.offsetMark = some t.offset := by
  obtain ⟨-, -, -, -, -, -, -, hoffset⟩ := t.valid
  unfold offsetMark offsetText
  split
  next h0 => rw [h0]; rfl
  next =>
    by_cases hneg : t.offset < 0
    · simp only [hneg, if_true]
      have hminus : isMinus '-' = true := rfl
      rw [List.cons_append, offset?_sign (.inr rfl) hoffset, if_pos hminus, Option.some.injEq]
      omega
    · simp only [hneg, if_false]
      have hplus : ¬ isMinus '+' = true := Bool.false_ne_true
      rw [List.cons_append, offset?_sign (.inl rfl) hoffset, if_neg hplus, Option.some.injEq]
      omega

theorem clock?_text (t : Timestamp) :
    clock? (t.clockText ++ t.offsetMark) = some ⟨t.hour, t.minute, t.second, t.microsecond, t.offset⟩ := by
  obtain ⟨-, -, -, hhour, hminute, hsecond, hmicros, -⟩ := t.valid
  simp only [clock?, clockText, List.append_assoc, List.cons_append]
  rw [takeDigits_padded (by decide) (by omega : t.hour < 10 ^ 2)]
  simp only [Option.bind_some, after_cons]
  rw [takeDigits_padded (by decide) (by omega : t.minute < 10 ^ 2)]
  simp only [Option.bind_some]
  rw [takeSeconds_text (by omega) (by omega) (endsClock_offsetMark t)]
  simp only [Option.bind_some, offset?_offsetMark, Option.map_some]

theorem daysInMonth_le (year month : Nat) : Calendar.daysInMonth year month ≤ 31 := by
  unfold Calendar.daysInMonth
  split
  · split <;> omega
  · split <;> omega

/-- A timestamp is what its document says. -/
theorem ofText_document (t : Timestamp) : ofText t.document.toList = .ok t := by
  obtain ⟨hyear, hmonth, hday, -⟩ := t.valid
  have hdays := daysInMonth_le t.year t.month
  have htext : t.document.toList = t.date.text ++ 'T' :: (t.clockText ++ t.offsetMark) := by
    simp [document, reading]
  have hdate : takeDate t.document.toList = some (t.date, 'T' :: (t.clockText ++ t.offsetMark)) := by
    rw [htext]
    exact takeDate_text (by simp only [date]; omega) (by simp only [date]; omega) (by simp only [date]; omega)
  have hclock : clockAfterDate ('T' :: (t.clockText ++ t.offsetMark)) =
      some ⟨t.hour, t.minute, t.second, t.microsecond, t.offset⟩ := by
    rw [← clock?_text]
    rfl
  have hread : ofDateText t.document.toList = .ok (some t) := by
    simp only [ofDateText, hdate, hclock]
    exact dif_pos t.valid
  rw [ofText, hread]

end Foreach.Timestamp

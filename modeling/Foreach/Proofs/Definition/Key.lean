import Foreach.Definition.Document
import Foreach.Proofs.Number.Written
import Foreach.Proofs.Text.Whole

/-!
No half stands in the text that a key becomes in a document.

A text with a half in it is refused as a key, bytes encode none, and what is written for a number, a day
or a moment is made of digits and marks. So a document can be made a document again.
-/

namespace Foreach

open Text (Whole)

theorem Numeral.Proper.whole_text {n : Numeral} (hn : n.Proper) : Whole n.text := by
  have hsign : Whole n.signText := by
    unfold signText
    split <;> decide
  have hfraction : Whole n.fractionText := by
    unfold fractionText
    split
    · decide
    · exact Text.whole_cons.2 ⟨by decide, Text.whole_digits hn.fraction⟩
  have hexponent : Whole n.exponentText := by
    unfold exponentText
    cases n.exponent with
    | none => decide
    | some e =>
      refine Text.whole_cons.2 ⟨by decide, Text.whole_cons.2 ⟨?_, Text.whole_padded 2 _⟩⟩
      split <;> decide
  simp only [text, Text.whole_append]
  exact ⟨⟨⟨hsign, Text.whole_digits hn.whole⟩, hfraction⟩, hexponent⟩

theorem FloatText.whole_render_finite (t : FloatText) (x : Binary64.Finite) : Whole (t.render (.finite x)) := by
  rw [render_finite]
  exact (numeralOf_proper t x.negative (Decimal.shortest_coefficient x)).whole_text

theorem Calendar.Date.whole_text (d : Calendar.Date) : Whole d.text := by
  simp only [text, Text.whole_append, Text.whole_cons]
  exact ⟨⟨Text.whole_padded 4 _, by decide, Text.whole_padded 2 _⟩, by decide, Text.whole_padded 2 _⟩

theorem Timestamp.whole_reading (t : Timestamp) : Whole t.reading := by
  have hclock : Whole t.clockText := by
    simp only [clockText, Text.whole_append, Text.whole_cons]
    refine ⟨⟨⟨Text.whole_padded 2 _, by decide, Text.whole_padded 2 _⟩, by decide, Text.whole_padded 2 _⟩, ?_⟩
    split
    · decide
    · exact Text.whole_cons.2 ⟨by decide, Text.whole_padded 6 _⟩
  simp only [reading, Text.whole_append, Text.whole_cons]
  exact ⟨t.date.whole_text, by decide, hclock⟩

theorem Timestamp.whole_offsetText (t : Timestamp) : Whole t.offsetText := by
  simp only [offsetText, Text.whole_append, Text.whole_cons, List.cons_append]
  refine ⟨?_, Text.whole_padded 2 _, by decide, Text.whole_padded 2 _⟩
  split <;> decide

theorem Timestamp.whole_offsetMark (t : Timestamp) : Whole t.offsetMark := by
  unfold offsetMark
  split
  · decide
  · exact t.whole_offsetText

theorem Timestamp.whole_display (t : Timestamp) : Whole t.display.toList := by
  rw [display, String.toList_ofList]
  exact Text.whole_append.2 ⟨t.whole_reading, t.whole_offsetText⟩

theorem Moment.whole_document (t : Moment) : Whole t.document := by
  rw [document, Text.whole_append]
  refine ⟨t.reading.whole_reading, ?_⟩
  split
  · exact t.reading.whole_offsetMark
  · decide

namespace Document

theorem whole_bytesText {bs : List UInt8} {cs : List Char} (h : bytesText bs = .ok cs) : Whole cs := by
  unfold bytesText at h
  split at h
  next => cases h
  next =>
    split at h
    next => cases h
    next hnone =>
      cases h
      intro c hc
      exact Bool.eq_false_iff.2 fun hhalf => hnone (List.any_eq_true.2 ⟨c, hc, hhalf⟩)

theorem whole_joinedKeys {ts : List (List Char)} (h : ∀ t ∈ ts, Whole t) : Whole (joinedKeys ts) := by
  fun_induction joinedKeys ts with
  | case1 => decide
  | case2 k => exact h k List.mem_cons_self
  | case3 k ks hks ih =>
    obtain ⟨hk, hrest⟩ := List.forall_mem_cons.1 h
    exact Text.whole_append.2 ⟨hk, Text.whole_cons.2 ⟨by decide, ih hrest⟩⟩

mutual

theorem whole_keyText {k : Key} {t : List Char} (h : keyText k = .ok t) : Whole t := by
  cases k with
  | null => cases h; decide
  | bool b => cases h; cases b <;> decide
  | int n => cases h; exact Text.whole_intNumeral n
  | float x =>
    cases h
    cases x with
    | finite x => exact FloatText.plain.whole_render_finite x
    | infinity negative => cases negative <;> decide
    | nan => decide
  | text s =>
    rw [keyText] at h
    split at h
    next => cases h
    next bs hencode =>
      cases h
      exact (Utf8.encode?_eq_ok hencode).2
  | bytes bs => exact whole_bytesText h
  | date d => cases h; exact d.whole_text
  | moment m => cases h; exact m.whole_document
  | tuple ks =>
    rw [keyText] at h
    cases hts : keyTexts ks with
    | error f => rw [hts] at h; cases h
    | ok ts =>
      rw [hts] at h
      cases h
      exact whole_joinedKeys (whole_keyTexts hts)

theorem whole_keyTexts {ks : List Key} {ts : List (List Char)} (h : keyTexts ks = .ok ts) :
    ∀ t ∈ ts, Whole t := by
  cases ks with
  | nil => cases h; exact List.forall_mem_nil _
  | cons k ks =>
    rw [keyTexts] at h
    split at h
    next => cases h
    next first hfirst =>
      cases hrest : keyTexts ks with
      | error f => rw [hrest] at h; cases h
      | ok rest =>
        rw [hrest] at h
        cases h
        exact List.forall_mem_cons.2 ⟨whole_keyText hfirst, whole_keyTexts hrest⟩

end

end Document
end Foreach

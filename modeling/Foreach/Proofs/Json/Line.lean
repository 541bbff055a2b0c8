import Foreach.Json.Printer
import Foreach.Proofs.Number.Written
import Foreach.Proofs.Text.Cut
import Foreach.Proofs.Value.Nested

/-!
Documents on one line.

A compact document has no line end in it, whatever texts, keys or bytes its value holds: in a text a line end is
written as a letter behind a backslash, and no other part of a document has one. So documents with a line end
behind each are what the whole is split into at its line ends.
-/

namespace Foreach

/-- No line end stands in the text. -/
def Text.OneLine (cs : List Char) : Prop := '\n' ∉ cs

namespace Text

instance (cs : List Char) : Decidable (OneLine cs) := inferInstanceAs (Decidable ('\n' ∉ cs))

theorem oneLine_append {cs ds : List Char} : OneLine (cs ++ ds) ↔ OneLine cs ∧ OneLine ds := by
  simp [OneLine, not_or]

theorem oneLine_cons {c : Char} {cs : List Char} : OneLine (c :: cs) ↔ c ≠ '\n' ∧ OneLine cs := by
  simp [OneLine, not_or, eq_comm]

theorem oneLine_flatMap {α : Type} {f : α → List Char} {items : List α} (h : ∀ item ∈ items, OneLine (f item)) :
    OneLine (items.flatMap f) := by
  intro hmem
  obtain ⟨item, hitem, hline⟩ := List.mem_flatMap.1 hmem
  exact h item hitem hline

theorem oneLine_digits {ds : List Char} (h : AllDigits ds) : OneLine ds :=
  fun hmem => absurd (h '\n' hmem) (by decide)

theorem oneLine_intNumeral (n : Int) : OneLine (intNumeral n) := by
  have hdigits : OneLine (Nat.toDigits 10 n.natAbs) := oneLine_digits (allDigits_toDigits _)
  unfold intNumeral
  split
  · exact oneLine_cons.2 ⟨by decide, hdigits⟩
  · exact hdigits

/-- The text of lines: each has its end behind it. -/
def ofLines (lines : List (List Char)) : List Char := lines.flatMap (· ++ ['\n'])

theorem ofLines_append (lines more : List (List Char)) : ofLines (lines ++ more) = ofLines lines ++ ofLines more :=
  List.flatMap_append

/-- Lines are the parts of their text between line ends; behind the last end is nothing. -/
theorem split_ofLines {lines : List (List Char)} (h : ∀ line ∈ lines, OneLine line) :
    split '\n' (ofLines lines) = lines ++ [[]] := by
  induction lines with
  | nil => rfl
  | cons line lines ih =>
    obtain ⟨hline, hlines⟩ := List.forall_mem_cons.1 h
    rw [ofLines, List.flatMap_cons, ← ofLines, List.append_assoc, List.singleton_append, split_append,
      split_of_not_mem hline, ih hlines, List.singleton_append, List.cons_append]

end Text

open Text (OneLine oneLine_append oneLine_cons)

theorem Numeral.Proper.oneLine_text {n : Numeral} (hn : n.Proper) : OneLine n.text := by
  have hsign : OneLine n.signText := by
    unfold signText
    split <;> decide
  have hfraction : OneLine n.fractionText := by
    unfold fractionText
    split
    · decide
    · exact oneLine_cons.2 ⟨by decide, Text.oneLine_digits hn.fraction⟩
  have hexponent : OneLine n.exponentText := by
    unfold exponentText
    cases n.exponent with
    | none => decide
    | some e =>
      refine oneLine_cons.2 ⟨by decide, oneLine_cons.2 ⟨?_, Text.oneLine_digits (Text.allDigits_padded 2 _)⟩⟩
      split <;> decide
  simp only [text, oneLine_append]
  exact ⟨⟨⟨hsign, Text.oneLine_digits hn.whole⟩, hfraction⟩, hexponent⟩

namespace Json

theorem oneLine_render (x : Binary64) : OneLine (FloatText.json.render x) := by
  cases x with
  | nan => decide
  | infinity negative => cases negative <;> decide
  | finite x =>
    rw [FloatText.render_finite]
    exact (FloatText.numeralOf_proper .json x.negative (Decimal.shortest_coefficient x)).oneLine_text

theorem oneLine_escape (c : Char) : OneLine (escape c) := by
  have hcontrol : ∀ n < 0x20, OneLine (Text.padded 16 4 n) := by decide
  by_cases hline : c = '\n'
  · subst hline
    decide
  unfold escape
  iterate 6
    split
    · decide
  split
  next hlow => exact oneLine_append.2 ⟨by decide, hcontrol _ hlow⟩
  next => exact oneLine_cons.2 ⟨hline, List.not_mem_nil⟩

theorem oneLine_quoted (cs : List Char) : OneLine (quoted cs) :=
  oneLine_cons.2 ⟨by decide, oneLine_append.2 ⟨Text.oneLine_flatMap fun c _ => oneLine_escape c, by decide⟩⟩

theorem oneLine_boolName (b : Bool) : OneLine (boolName b) := by
  cases b <;> decide

/-- Between the brackets of a compact container there are its items, commas and blanks. -/
theorem oneLine_enclose {depth : Nat} {opening closing : Char} {items : List (List Char)} (hopening : opening ≠ '\n')
    (hclosing : closing ≠ '\n') (hitems : ∀ item ∈ items, OneLine item) :
    OneLine (Layout.compact.enclose depth opening closing items) := by
  have hend : OneLine [closing] := oneLine_cons.2 ⟨hclosing, List.not_mem_nil⟩
  cases items with
  | nil => exact oneLine_cons.2 ⟨hopening, hend⟩
  | cons first items =>
    obtain ⟨hfirst, hothers⟩ := List.forall_mem_cons.1 hitems
    have hrest : OneLine (items.flatMap (Layout.compact.separator (depth + 1) ++ ·)) :=
      Text.oneLine_flatMap fun item hitem => oneLine_append.2 ⟨(by decide : OneLine [',', ' ']), hothers item hitem⟩
    refine oneLine_cons.2 ⟨hopening, ?_⟩
    simp only [oneLine_append]
    exact ⟨⟨⟨⟨List.not_mem_nil, hfirst⟩, hrest⟩, List.not_mem_nil⟩, hend⟩

theorem oneLine_printAll {depth : Nat} {vs : List Value} {items : List (List Char)}
    (hvs : ∀ v ∈ vs, ∀ depth cs, print .compact depth v = some cs → OneLine cs)
    (h : printAll .compact depth vs = some items) : ∀ item ∈ items, OneLine item := by
  induction vs generalizing items with
  | nil =>
    cases h
    exact List.forall_mem_nil _
  | cons v vs ih =>
    obtain ⟨hv, hvs⟩ := List.forall_mem_cons.1 hvs
    rw [printAll] at h
    split at h
    next item rest hitem hrest =>
      cases h
      exact List.forall_mem_cons.2 ⟨hv _ _ hitem, ih hvs hrest⟩
    next => cases h

theorem oneLine_printEntries {depth : Nat} {es : List (Key × Value)} {items : List (List Char)}
    (hes : ∀ e ∈ es, ∀ depth cs, print .compact depth e.2 = some cs → OneLine cs)
    (h : printEntries .compact depth es = some items) : ∀ item ∈ items, OneLine item := by
  induction es generalizing items with
  | nil =>
    cases h
    exact List.forall_mem_nil _
  | cons e es ih =>
    obtain ⟨he, hes⟩ := List.forall_mem_cons.1 hes
    rw [printEntries] at h
    split at h
    next key item rest _ hitem hrest =>
      cases h
      refine List.forall_mem_cons.2 ⟨?_, ih hes hrest⟩
      exact oneLine_append.2 ⟨oneLine_append.2 ⟨oneLine_quoted key, by decide⟩, he _ _ hitem⟩
    next => cases h

theorem oneLine_print {depth : Nat} {v : Value} {cs : List Char} (h : print .compact depth v = some cs) :
    OneLine cs := by
  induction v using Value.nested generalizing depth cs with
  | null =>
    cases h
    decide
  | bool b =>
    cases h
    exact oneLine_boolName b
  | int n =>
    cases h
    exact Text.oneLine_intNumeral n
  | float x =>
    cases h
    exact oneLine_render x
  | text | bytes | date | moment =>
    cases h
    exact oneLine_quoted _
  | list vs ih | tuple vs ih =>
    obtain ⟨items, hitems, rfl⟩ := Option.map_eq_some_iff.1 h
    exact oneLine_enclose (by decide) (by decide) (oneLine_printAll (fun v hv _ _ => ih v hv) hitems)
  | map es ih =>
    obtain ⟨items, hitems, rfl⟩ := Option.map_eq_some_iff.1 h
    exact oneLine_enclose (by decide) (by decide) (oneLine_printEntries (fun e he _ _ => ih e he) hitems)

end Json
end Foreach

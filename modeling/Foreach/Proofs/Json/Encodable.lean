import Foreach.Json.Printer
import Foreach.Proofs.Text.Whole
import Foreach.Proofs.Value.Mapping
import Foreach.Proofs.Value.Nested

/-!
Values whose document some bytes encode.

No half of a character can stand in a text that is to be encoded. The printer shows halves as they are,
so if there is none in a document, there is none in any text or key of its value. The other way round, a
value whose parts have documents without halves has one itself, however it is laid out.
-/

namespace Foreach

namespace Json

/-- A value has a document in which there is no half. -/
def Encodable (v : Value) : Prop :=
  ∃ (l : Layout) (depth : Nat) (cs : List Char), print l depth v = some cs ∧ Text.Whole cs

theorem mem_enclose {l : Layout} {depth : Nat} {opening closing : Char} {items : List (List Char)}
    {item : List Char} (hitem : item ∈ items) {c : Char} (hc : c ∈ item) :
    c ∈ l.enclose depth opening closing items := by
  cases items with
  | nil => cases hitem
  | cons first items =>
    simp only [Layout.enclose, List.mem_cons, List.mem_append, List.mem_flatMap]
    rcases List.mem_cons.1 hitem with rfl | hrest
    · exact .inr (.inl (.inl (.inl (.inr hc))))
    · exact .inr (.inl (.inl (.inr ⟨item, hrest, .inr hc⟩)))

theorem escape_of_isHalf {c : Char} (h : Text.isHalf c = true) : escape c = [c] := by
  have hcode : 0xd800 + Text.halfShift ≤ c.toNat := by simpa [Text.isHalf] using h
  have hne : ∀ d : Char, d.toNat < 0xd800 → c ≠ d := by
    rintro d hd rfl
    simp only [Text.halfShift] at hcode
    omega
  simp only [Text.halfShift] at hcode
  simp only [escape, if_neg (hne '"' (by decide)), if_neg (hne '\\' (by decide)), if_neg (hne '\n' (by decide)),
    if_neg (hne '\r' (by decide)), if_neg (hne '\t' (by decide)), if_neg (by omega : ¬ c.toNat = 0x0c),
    if_neg (by omega : ¬ c.toNat = 0x08), if_neg (by omega : ¬ c.toNat < 0x20)]

/-- A half goes into its document as it is. -/
theorem whole_of_quoted {cs : List Char} (h : Text.Whole (quoted cs)) : Text.Whole cs := by
  intro c hc
  cases hhalf : Text.isHalf c with
  | false => rfl
  | true =>
    have hmem : c ∈ quoted cs := by
      simp only [quoted, List.mem_cons, List.mem_append, List.mem_flatMap]
      exact .inr (.inl ⟨c, hc, by simp [escape_of_isHalf hhalf]⟩)
    exact absurd (h c hmem) (by simp [hhalf])

theorem printAll_mem {l : Layout} {depth : Nat} {vs : List Value} {items : List (List Char)}
    (h : printAll l depth vs = some items) {v : Value} (hv : v ∈ vs) :
    ∃ item ∈ items, print l depth v = some item := by
  induction vs generalizing items with
  | nil => cases hv
  | cons w vs ih =>
    rw [printAll] at h
    split at h
    next item rest hitem hrest =>
      cases h
      rcases List.mem_cons.1 hv with rfl | hmem
      · exact ⟨item, List.mem_cons_self, hitem⟩
      · obtain ⟨found, hfound, hprint⟩ := ih hrest hmem
        exact ⟨found, List.mem_cons_of_mem _ hfound, hprint⟩
    next => cases h

theorem printEntries_mem {l : Layout} {depth : Nat} {es : List (Key × Value)} {items : List (List Char)}
    (h : printEntries l depth es = some items) {e : Key × Value} (he : e ∈ es) :
    ∃ key item, keyText e.1 = some key ∧ print l depth e.2 = some item ∧
      quoted key ++ [':', ' '] ++ item ∈ items := by
  induction es generalizing items with
  | nil => cases he
  | cons first es ih =>
    obtain ⟨k, v⟩ := first
    rw [printEntries] at h
    split at h
    next key item rest hkey hitem hrest =>
      cases h
      rcases List.mem_cons.1 he with rfl | hmem
      · exact ⟨key, item, hkey, hitem, List.mem_cons_self⟩
      · obtain ⟨key', item', hkey', hitem', hmem'⟩ := ih hrest hmem
        exact ⟨key', item', hkey', hitem', List.mem_cons_of_mem _ hmem'⟩
    next => cases h

theorem Encodable.text {s : String} (h : Encodable (.text s)) : Text.Whole s.toList := by
  obtain ⟨l, depth, cs, hprint, hwhole⟩ := h
  cases hprint
  exact whole_of_quoted hwhole

theorem Encodable.item {vs : List Value} (h : Encodable (.list vs)) {v : Value} (hv : v ∈ vs) :
    Encodable v := by
  obtain ⟨l, depth, cs, hprint, hwhole⟩ := h
  obtain ⟨items, hitems, rfl⟩ := Option.map_eq_some_iff.1 hprint
  obtain ⟨item, hitem, hv⟩ := printAll_mem hitems hv
  exact ⟨l, depth + 1, item, hv, fun c hc => hwhole c (mem_enclose hitem hc)⟩

theorem Encodable.entry {es : List (Key × Value)} (h : Encodable (.map es)) {e : Key × Value} (he : e ∈ es) :
    (∃ key, keyText e.1 = some key ∧ Text.Whole key) ∧ Encodable e.2 := by
  obtain ⟨l, depth, cs, hprint, hwhole⟩ := h
  obtain ⟨items, hitems, rfl⟩ := Option.map_eq_some_iff.1 hprint
  obtain ⟨key, item, hkey, hitem, hmem⟩ := printEntries_mem hitems he
  have hparts : Text.Whole (quoted key ++ [':', ' '] ++ item) := fun c hc => hwhole c (mem_enclose hmem hc)
  refine ⟨⟨key, hkey, whole_of_quoted fun c hc => hparts c ?_⟩, l, depth + 1, item, hitem, fun c hc => hparts c ?_⟩
  · simp [hc]
  · simp [hc]

theorem Encodable.part {vs : List Value} (h : Encodable (.tuple vs)) {v : Value} (hv : v ∈ vs) :
    Encodable v := by
  have hlist : Encodable (.list vs) := h
  exact hlist.item hv

/-! ### Other layouts -/

theorem whole_enclose (l : Layout) (depth : Nat) {opening closing : Char} {items : List (List Char)}
    (hopening : Text.isHalf opening = false) (hclosing : Text.isHalf closing = false)
    (hitems : ∀ item ∈ items, Text.Whole item) : Text.Whole (l.enclose depth opening closing items) := by
  have hbreak : ∀ depth, Text.Whole (l.lineBreak depth) := by
    intro depth c hc
    unfold Layout.lineBreak at hc
    split at hc
    next => cases hc
    next =>
      rcases List.mem_cons.1 hc with rfl | hblank
      · decide
      · rw [List.eq_of_mem_replicate hblank]
        decide
  have hseparator : ∀ depth, Text.Whole (l.separator depth) := by
    intro depth
    unfold Layout.separator
    split
    next => decide
    next => exact Text.whole_cons.2 ⟨by decide, hbreak depth⟩
  cases items with
  | nil => exact Text.whole_cons.2 ⟨hopening, Text.whole_cons.2 ⟨hclosing, List.forall_mem_nil _⟩⟩
  | cons first items =>
    obtain ⟨hfirst, hrest⟩ := List.forall_mem_cons.1 hitems
    have hothers : Text.Whole (items.flatMap (l.separator (depth + 1) ++ ·)) := by
      intro c hc
      obtain ⟨item, hitem, hmem⟩ := List.mem_flatMap.1 hc
      exact Text.whole_append.2 ⟨hseparator _, hrest item hitem⟩ c hmem
    refine Text.whole_cons.2 ⟨hopening, ?_⟩
    simp only [Text.whole_append]
    exact ⟨⟨⟨⟨hbreak _, hfirst⟩, hothers⟩, hbreak _⟩, Text.whole_cons.2 ⟨hclosing, List.forall_mem_nil _⟩⟩

theorem whole_escape {c : Char} (h : Text.isHalf c = false) : Text.Whole (escape c) := by
  have hcontrol : ∀ n < 0x20, Text.Whole (Text.padded 16 4 n) := by decide
  unfold escape
  iterate 7
    split
    · decide
  split
  next hlow => exact Text.whole_append.2 ⟨by decide, hcontrol _ hlow⟩
  next => exact Text.whole_cons.2 ⟨h, List.forall_mem_nil _⟩

theorem whole_quoted {cs : List Char} (h : Text.Whole cs) : Text.Whole (quoted cs) := by
  have hescaped : Text.Whole (cs.flatMap escape) := by
    intro c hc
    obtain ⟨d, hd, hmem⟩ := List.mem_flatMap.1 hc
    exact whole_escape (h d hd) c hmem
  exact Text.whole_cons.2 ⟨by decide, Text.whole_append.2 ⟨hescaped, by decide⟩⟩

/-- The value has a document without a half in this layout. -/
def PrintsWhole (l : Layout) (depth : Nat) (v : Value) : Prop :=
  ∃ cs, print l depth v = some cs ∧ Text.Whole cs

variable {l : Layout} {depth : Nat} {vs : List Value} {es : List (Key × Value)}

theorem printsWhole_list (h : ∀ v ∈ vs, PrintsWhole l (depth + 1) v) : PrintsWhole l depth (.list vs) := by
  have hall : ∃ items, printAll l (depth + 1) vs = some items ∧ ∀ item ∈ items, Text.Whole item := by
    induction vs with
    | nil => exact ⟨[], rfl, List.forall_mem_nil _⟩
    | cons v vs ih =>
      obtain ⟨⟨item, hitem, hwhole⟩, hrest⟩ := List.forall_mem_cons.1 h
      obtain ⟨items, hitems, hwholes⟩ := ih hrest
      refine ⟨item :: items, ?_, List.forall_mem_cons.2 ⟨hwhole, hwholes⟩⟩
      rw [printAll, hitem, hitems]
  obtain ⟨items, hitems, hwhole⟩ := hall
  exact ⟨_, Option.map_eq_some_iff.2 ⟨items, hitems, rfl⟩, whole_enclose l depth (by decide) (by decide) hwhole⟩

theorem printsWhole_map (hkeys : ∀ e ∈ es, ∃ key, keyText e.1 = some key ∧ Text.Whole key)
    (hvalues : ∀ e ∈ es, PrintsWhole l (depth + 1) e.2) : PrintsWhole l depth (.map es) := by
  have hall : ∃ items, printEntries l (depth + 1) es = some items ∧ ∀ item ∈ items, Text.Whole item := by
    induction es with
    | nil => exact ⟨[], rfl, List.forall_mem_nil _⟩
    | cons e es ih =>
      obtain ⟨⟨key, hkey, hkeyWhole⟩, hkeys⟩ := List.forall_mem_cons.1 hkeys
      obtain ⟨⟨item, hitem, hwhole⟩, hvalues⟩ := List.forall_mem_cons.1 hvalues
      obtain ⟨items, hitems, hwholes⟩ := ih hkeys hvalues
      have hentry : Text.Whole (quoted key ++ [':', ' '] ++ item) :=
        Text.whole_append.2 ⟨Text.whole_append.2 ⟨whole_quoted hkeyWhole, by decide⟩, hwhole⟩
      refine ⟨(quoted key ++ [':', ' '] ++ item) :: items, ?_, List.forall_mem_cons.2 ⟨hentry, hwholes⟩⟩
      rw [printEntries, hkey, hitem, hitems]
  obtain ⟨items, hitems, hwhole⟩ := hall
  exact ⟨_, Option.map_eq_some_iff.2 ⟨items, hitems, rfl⟩, whole_enclose l depth (by decide) (by decide) hwhole⟩

/-- What has a document without a half in one layout has one in each. -/
theorem Encodable.printsWhole {v : Value} (h : Encodable v) (l : Layout) (depth : Nat) :
    PrintsWhole l depth v := by
  induction v using Value.nested generalizing depth with
  | list vs ih => exact printsWhole_list fun v hv => ih v hv (h.item hv) _
  | tuple vs ih => exact printsWhole_list fun v hv => ih v hv (h.part hv) _
  | map es ih =>
    exact printsWhole_map (fun e he => (h.entry he).1) fun e he => ih e he (h.entry he).2 _
  | _ =>
    obtain ⟨_, _, cs, hprint, hwhole⟩ := h
    exact ⟨cs, hprint, hwhole⟩

theorem encodable_list (h : ∀ v ∈ vs, Encodable v) : Encodable (.list vs) :=
  ⟨.indented, 0, printsWhole_list fun v hv => (h v hv).printsWhole _ _⟩

theorem encodable_map (hkeys : ∀ e ∈ es, ∃ key, keyText e.1 = some key ∧ Text.Whole key)
    (hvalues : ∀ e ∈ es, Encodable e.2) : Encodable (.map es) :=
  ⟨.indented, 0, printsWhole_map hkeys fun e he => (hvalues e he).printsWhole _ _⟩

end Json
end Foreach

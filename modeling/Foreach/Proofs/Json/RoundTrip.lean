import Foreach.Json.Reader
import Foreach.Proofs.Json.Token
import Foreach.Proofs.Value.Mapping

/-!
A document that is printed is read as what it was.

The machine that reads is fed the text; a value that is printed where a value may stand brings it, in
whatever containers it is, to where that value is complete. The induction is on the value, and over the
items of a container on what is left of them.
-/

namespace Foreach

/-- A value that has a JSON form of its own: its numbers are finite, and its mappings have one text for
each of their keys. -/
inductive Value.Plain : Value → Prop
  | null : Plain .null
  | bool (b : Bool) : Plain (.bool b)
  | int (n : Int) : Plain (.int n)
  | float (x : Binary64.Finite) : Plain (.float (.finite x))
  | text (s : String) : Plain (.text s)
  | list {vs : List Value} (items : ∀ v ∈ vs, Plain v) : Plain (.list vs)
  | map {es : List (Key × Value)} (distinct : Mapping.Distinct es) (texts : Mapping.Texts es)
    (values : ∀ e ∈ es, Plain e.2) : Plain (.map es)

namespace Json

namespace Machine

/-- The machine after the tokens of a text. -/
def feed (m : Machine) (cs : List Char) : Option Machine := (tokens cs).bind m.run

theorem feed_spaces (m : Machine) {ws : List Char} (hws : ∀ c ∈ ws, isSpace c = true) (cs : List Char) :
    m.feed (ws ++ cs) = m.feed cs := by
  rw [feed, feed, tokens_of_spaces hws]

/-- A token in front is one step. -/
theorem feed_token (m : Machine) {cs r : List Char} {t : Token} (h : scanToken cs = some (t, r)) :
    m.feed cs = (m.step t).bind (feed · r) := by
  have hscan : scanToken (cs.dropWhile isSpace) = some (t, r) := by rwa [dropWhile_of_scan h]
  rw [feed, tokens_scan hscan]
  cases htokens : tokens r with
  | none => cases m.step t <;> simp [feed, htokens]
  | some ts => simp [feed, htokens, run]

theorem feed_punctuation (m : Machine) {c : Char} {t : Token} (h : punctuation c = some t) (r : List Char) :
    m.feed (c :: r) = (m.step t).bind (feed · r) := by
  refine m.feed_token ?_
  simp [scanToken, h]

theorem feed_quoted (m : Machine) (cs r : List Char) :
    m.feed (quoted cs ++ r) = (m.step (.text (String.ofList cs))).bind (feed · r) :=
  m.feed_token (scanToken_quoted cs r)

/-- A machine for which any value may come next. -/
def Awaits (m : Machine) (stack : List Frame) : Prop := ∀ t, t ≠ .closeList → m.step t = beginValue stack t

theorem awaits_value (stack : List Frame) : (⟨stack, .value⟩ : Machine).Awaits stack :=
  fun _ _ => rfl

theorem awaits_firstItem (items : List Value) (stack : List Frame) :
    (⟨.list items :: stack, .firstItem⟩ : Machine).Awaits (.list items :: stack) := by
  intro t ht
  cases t <;> first | rfl | exact absurd rfl ht

end Machine

/-! ### Scalars -/

theorem scanToken_null (r : List Char) : scanToken ("null".toList ++ r) = some (.scalar .null, r) := rfl

theorem scanToken_bool (b : Bool) (r : List Char) : scanToken (boolName b ++ r) = some (.scalar (.bool b), r) := by
  cases b <;> rfl

/-- The numeral of a whole number. -/
def intNumeral (n : Int) : Numeral := ⟨decide (n < 0), Nat.toDigits 10 n.natAbs, [], none⟩

theorem text_intNumeral (n : Int) : (intNumeral n).text = Text.intNumeral n := by
  unfold Text.intNumeral
  split <;> simp_all [intNumeral, Numeral.text, Numeral.signText, Numeral.fractionText, Numeral.exponentText]

theorem intNumeral_proper (n : Int) : (intNumeral n).Proper where
  whole := Text.allDigits_toDigits _
  whole_ne_nil := Nat.toDigits_ne_nil
  whole_ne_zero := by
    intro c cs h
    change Nat.toDigits 10 n.natAbs = '0' :: c :: cs at h
    by_cases hn : n.natAbs = 0
    · rw [hn] at h
      cases h
    · exact Text.head?_toDigits_ne_zero hn (by rw [h]; rfl)
  fraction := by
    intro c hc
    cases hc

theorem valueOf_intNumeral (n : Int) : valueOf (intNumeral n) = .int n := by
  have hsigned : Text.signed (decide (n < 0)) n.natAbs = n := by
    rw [Text.signed]
    simp only [decide_eq_true_eq]
    omega
  simp only [valueOf, intNumeral, Text.numeral_toDigits, hsigned]

theorem valueOf_marked {n : Numeral} (h : n.fraction ≠ [] ∨ n.exponent ≠ none) :
    valueOf n = .float n.toBinary64 := by
  unfold valueOf
  split
  next hfraction hexponent => simp [hfraction, hexponent] at h
  next => rfl

theorem scanToken_int (n : Int) {r : List Char} (hr : EndsNumber r) :
    scanToken (Text.intNumeral n ++ r) = some (.scalar (.int n), r) := by
  rw [← text_intNumeral, scanToken_numeral (intNumeral_proper n) hr, valueOf_intNumeral]

theorem scanToken_float (x : Binary64.Finite) {r : List Char} (hr : EndsNumber r) :
    scanToken (FloatText.json.render (.finite x) ++ r) = some (.scalar (.float (.finite x)), r) := by
  have hproper := FloatText.numeralOf_proper .json x.negative (Decimal.shortest_coefficient x)
  rw [FloatText.render_finite, scanToken_numeral hproper hr,
    valueOf_marked (FloatText.numeralOf_marked _ _ _), FloatText.toBinary64_numeralOf]

/-! ### Layout -/

theorem isSpace_lineBreak (l : Layout) (depth : Nat) : ∀ c ∈ l.lineBreak depth, isSpace c = true := by
  unfold Layout.lineBreak
  cases l.indent with
  | none => simp
  | some n =>
    intro c hc
    rcases List.mem_cons.1 hc with rfl | hblank
    · rfl
    · rw [List.eq_of_mem_replicate hblank]
      rfl

/-- Two items have a comma between them, and blanks. -/
theorem separator_eq (l : Layout) (depth : Nat) :
    ∃ ws, l.separator depth = ',' :: ws ∧ ∀ c ∈ ws, isSpace c = true := by
  have hblanks := isSpace_lineBreak l depth
  unfold Layout.separator
  cases l.indent with
  | none => exact ⟨[' '], rfl, by simp [isSpace]⟩
  | some n => exact ⟨_, rfl, hblanks⟩

theorem endsNumber_of_space {c : Char} (hc : isSpace c = true) (r : List Char) : EndsNumber (c :: r) := by
  have hcases : c = ' ' ∨ c = '\t' ∨ c = '\n' ∨ c = '\r' := by
    simpa [isSpace, or_assoc] using hc
  rcases hcases with rfl | rfl | rfl | rfl <;> exact endsNumber_cons (by decide) (by decide) (by decide) (by decide)

/-- A number ends in front of the items that follow, and in front of the end of its container. -/
theorem endsNumber_tail (l : Layout) (depth deeper : Nat) (items : List (List Char)) {closing : List Char}
    (hclosing : EndsNumber closing) :
    EndsNumber (items.flatMap (l.separator deeper ++ ·) ++ (l.lineBreak depth ++ closing)) := by
  cases items with
  | cons item items =>
    obtain ⟨ws, hws, -⟩ := separator_eq l deeper
    simp only [List.flatMap_cons, hws, List.cons_append]
    exact endsNumber_cons (by decide) (by decide) (by decide) (by decide)
  | nil =>
    cases hbreak : l.lineBreak depth with
    | nil => exact hclosing
    | cons c cs => exact endsNumber_of_space (isSpace_lineBreak l depth c (by simp [hbreak])) _

/-! ### Values -/

/-- Where a value may stand, its printed text brings the machine to where it is complete. -/
def ReadsBack (v : Value) : Prop :=
  ∀ {l : Layout} {depth : Nat} {cs rest : List Char} {m : Machine} {stack : List Frame},
    print l depth v = some cs → m.Awaits stack → EndsNumber rest →
      m.feed (cs ++ rest) = (⟨stack, .complete v⟩ : Machine).feed rest

theorem Machine.feed_scalar {m : Machine} {stack : List Frame} {v : Value} {cs r : List Char}
    (hm : m.Awaits stack) (h : scanToken cs = some (.scalar v, r)) :
    m.feed cs = (⟨stack, .complete v⟩ : Machine).feed r := by
  rw [m.feed_token h, hm _ (by simp)]
  rfl

theorem readsBack_text (s : String) : ReadsBack (.text s) := by
  intro l depth cs rest m stack hprint hm _
  cases hprint
  rw [m.feed_quoted, hm _ (by simp), String.ofList_toList]
  rfl

theorem printAll_cons_eq_some {l : Layout} {depth : Nat} {v : Value} {vs : List Value}
    {items : List (List Char)} (h : printAll l depth (v :: vs) = some items) :
    ∃ item rest, print l depth v = some item ∧ printAll l depth vs = some rest ∧ items = item :: rest := by
  rw [printAll] at h
  split at h
  next item rest hitem hrest =>
    cases h
    exact ⟨item, rest, hitem, hrest, rfl⟩
  next => cases h

theorem endsNumber_closeList (r : List Char) : EndsNumber (']' :: r) :=
  endsNumber_cons (by decide) (by decide) (by decide) (by decide)

theorem endsNumber_closeMap (r : List Char) : EndsNumber ('\x7d' :: r) :=
  endsNumber_cons (by decide) (by decide) (by decide) (by decide)

/-- A comma, and the blanks behind it. -/
theorem feed_separator (m : Machine) (l : Layout) (depth : Nat) (r : List Char) :
    m.feed (l.separator depth ++ r) = (m.step .comma).bind (Machine.feed · r) := by
  obtain ⟨ws, hws, hblanks⟩ := separator_eq l depth
  rw [hws, List.cons_append, m.feed_punctuation rfl]
  congr 1
  funext m'
  rw [m'.feed_spaces hblanks]

/-- The items of a list behind the first one. -/
theorem feed_items {l : Layout} (depth : Nat) {deeper : Nat} {vs : List Value} {items : List (List Char)}
    (hvs : ∀ v ∈ vs, ReadsBack v) (hitems : printAll l deeper vs = some items) (seen : List Value)
    (v : Value) (stack : List Frame) (rest : List Char) :
    (⟨.list seen :: stack, .complete v⟩ : Machine).feed
        (items.flatMap (l.separator deeper ++ ·) ++ (l.lineBreak depth ++ ']' :: rest)) =
      (⟨stack, .complete (.list (seen.reverse ++ v :: vs))⟩ : Machine).feed rest := by
  induction vs generalizing items seen v with
  | nil =>
    cases hitems
    rw [List.flatMap_nil, List.nil_append, Machine.feed_spaces _ (isSpace_lineBreak l depth),
      Machine.feed_punctuation (t := .closeList) _ rfl]
    simp [Machine.step, Machine.continueWith, Machine.completed]
  | cons w vs ih =>
    obtain ⟨item, items, hitem, hrest, rfl⟩ := printAll_cons_eq_some hitems
    have hends := endsNumber_tail l depth deeper items (endsNumber_closeList rest)
    have hw := hvs w List.mem_cons_self hitem (Machine.awaits_value (.list (v :: seen) :: stack)) hends
    have hvs' := ih (fun v hv => hvs v (List.mem_cons_of_mem _ hv)) hrest (v :: seen) w
    rw [List.flatMap_cons, List.append_assoc, List.append_assoc, feed_separator]
    simp only [Machine.step, Machine.continueWith, Option.bind_some]
    rw [hw, hvs', List.reverse_cons, List.append_assoc]
    rfl

theorem readsBack_list {vs : List Value} (hvs : ∀ v ∈ vs, ReadsBack v) : ReadsBack (.list vs) := by
  intro l depth cs rest m stack hprint hm _
  obtain ⟨items, hitems, rfl⟩ := Option.map_eq_some_iff.1 hprint
  cases vs with
  | nil =>
    cases hitems
    simp only [Layout.enclose, List.cons_append, List.nil_append]
    rw [m.feed_punctuation (t := .openList) rfl, hm _ (by simp), Machine.beginValue, Option.bind_some,
      Machine.feed_punctuation (t := .closeList) _ rfl]
    rfl
  | cons v vs =>
    obtain ⟨item, items, hitem, hrest, rfl⟩ := printAll_cons_eq_some hitems
    have hends := endsNumber_tail l depth (depth + 1) items (endsNumber_closeList rest)
    have hv := hvs v List.mem_cons_self hitem (Machine.awaits_firstItem [] stack) hends
    have hvs' := feed_items depth (fun v hv => hvs v (List.mem_cons_of_mem _ hv)) hrest [] v stack rest
    simp only [Layout.enclose, List.cons_append, List.append_assoc, List.nil_append]
    rw [m.feed_punctuation (t := .openList) rfl, hm _ (by simp), Machine.beginValue, Option.bind_some,
      Machine.feed_spaces _ (isSpace_lineBreak l (depth + 1)), hv, hvs']
    rfl

/-! ### Mappings -/

theorem printEntries_cons_eq_some {l : Layout} {depth : Nat} {name : String} {v : Value}
    {es : List (Key × Value)} {items : List (List Char)}
    (h : printEntries l depth ((.text name, v) :: es) = some items) :
    ∃ item rest, print l depth v = some item ∧ printEntries l depth es = some rest ∧
      items = (quoted name.toList ++ [':', ' '] ++ item) :: rest := by
  rw [printEntries] at h
  split at h
  next key item rest hkey hitem hrest =>
    cases h
    cases hkey
    exact ⟨item, rest, hitem, hrest, rfl⟩
  next => cases h

/-- A key and its value, where a key may stand. -/
theorem feed_entry {l : Layout} {depth : Nat} {m : Machine} {stack : List Frame} {seen : List (Key × Value)}
    {name : String} {v : Value} {item rest : List Char}
    (hm : m.step (.text name) = some ⟨stack, .colon seen name⟩) (hv : ReadsBack v)
    (hitem : print l depth v = some item) (hrest : EndsNumber rest) :
    m.feed (quoted name.toList ++ [':', ' '] ++ item ++ rest) =
      (⟨.map seen name :: stack, .complete v⟩ : Machine).feed rest := by
  have hspace : ∀ c ∈ [' '], isSpace c = true := by simp [isSpace]
  have hvalue := hv hitem (Machine.awaits_value (.map seen name :: stack)) hrest
  rw [List.append_assoc, List.append_assoc, m.feed_quoted, String.ofList_toList, hm, Option.bind_some,
    List.cons_append, Machine.feed_punctuation (t := .colon) _ rfl]
  simp only [Machine.step, Option.bind_some]
  rw [Machine.feed_spaces _ hspace, hvalue]

/-- The entries of a mapping behind the first one. -/
theorem feed_entries {l : Layout} (depth : Nat) {deeper : Nat} {es : List (Key × Value)} {items : List (List Char)}
    (htexts : Mapping.Texts es) (hes : ∀ e ∈ es, ReadsBack e.2) (hitems : printEntries l deeper es = some items)
    (seen : List (Key × Value)) (name : String) (v : Value) (stack : List Frame) (rest : List Char) :
    (⟨.map seen name :: stack, .complete v⟩ : Machine).feed
        (items.flatMap (l.separator deeper ++ ·) ++ (l.lineBreak depth ++ '\x7d' :: rest)) =
      (⟨stack, .complete (.map (Mapping.ofEntries (seen.reverse ++ (.text name, v) :: es)))⟩ :
        Machine).feed rest := by
  induction es generalizing items seen name v with
  | nil =>
    cases hitems
    rw [List.flatMap_nil, List.nil_append, Machine.feed_spaces _ (isSpace_lineBreak l depth),
      Machine.feed_punctuation (t := .closeMap) _ rfl]
    simp [Machine.step, Machine.continueWith, Machine.completed]
  | cons e es ih =>
    obtain ⟨k, w⟩ := e
    obtain ⟨other, rfl⟩ : ∃ other, k = .text other := htexts (k, w) List.mem_cons_self
    obtain ⟨item, items, hitem, hrest, rfl⟩ := printEntries_cons_eq_some hitems
    have hends := endsNumber_tail l depth deeper items (endsNumber_closeMap rest)
    have hkey : (⟨stack, .key ((.text name, v) :: seen)⟩ : Machine).step (.text other) =
      some ⟨stack, .colon ((.text name, v) :: seen) other⟩ := rfl
    have hw := feed_entry hkey (hes _ List.mem_cons_self) hitem hends
    have hes' := ih (fun e he => htexts e (List.mem_cons_of_mem _ he))
      (fun e he => hes e (List.mem_cons_of_mem _ he)) hrest ((.text name, v) :: seen) other w
    rw [List.flatMap_cons, List.append_assoc, List.append_assoc, feed_separator]
    simp only [Machine.step, Machine.continueWith, Option.bind_some]
    rw [hw, hes', List.reverse_cons, List.append_assoc]
    rfl

theorem readsBack_map {es : List (Key × Value)} (hdistinct : Mapping.Distinct es)
    (htexts : Mapping.Texts es) (hes : ∀ e ∈ es, ReadsBack e.2) : ReadsBack (.map es) := by
  intro l depth cs rest m stack hprint hm _
  obtain ⟨items, hitems, rfl⟩ := Option.map_eq_some_iff.1 hprint
  cases es with
  | nil =>
    cases hitems
    simp only [Layout.enclose, List.cons_append, List.nil_append]
    rw [m.feed_punctuation (t := .openMap) rfl, hm _ (by simp), Machine.beginValue, Option.bind_some,
      Machine.feed_punctuation (t := .closeMap) _ rfl]
    rfl
  | cons e es =>
    obtain ⟨k, v⟩ := e
    obtain ⟨name, rfl⟩ : ∃ name, k = .text name := htexts (k, v) List.mem_cons_self
    obtain ⟨item, items, hitem, hrest, rfl⟩ := printEntries_cons_eq_some hitems
    have hends := endsNumber_tail l depth (depth + 1) items (endsNumber_closeMap rest)
    have hkey : (⟨stack, .firstKey⟩ : Machine).step (.text name) = some ⟨stack, .colon [] name⟩ := rfl
    have hv := feed_entry hkey (hes _ List.mem_cons_self) hitem hends
    have hes' := feed_entries depth (fun e he => htexts e (List.mem_cons_of_mem _ he))
      (fun e he => hes e (List.mem_cons_of_mem _ he)) hrest [] name v stack rest
    rw [List.reverse_nil, List.nil_append, Mapping.ofEntries_of_distinct hdistinct] at hes'
    rw [← hes', ← hv]
    simp only [Layout.enclose, List.cons_append, List.append_assoc, List.nil_append]
    rw [m.feed_punctuation (t := .openMap) rfl, hm _ (by simp), Machine.beginValue, Option.bind_some,
      Machine.feed_spaces _ (isSpace_lineBreak l (depth + 1))]

theorem readsBack_of_plain {v : Value} (h : v.Plain) : ReadsBack v := by
  induction h with
  | null =>
    intro l depth cs rest m stack hprint hm _
    cases hprint
    exact Machine.feed_scalar hm (scanToken_null rest)
  | bool b =>
    intro l depth cs rest m stack hprint hm _
    cases hprint
    exact Machine.feed_scalar hm (scanToken_bool b rest)
  | int n =>
    intro l depth cs rest m stack hprint hm hrest
    cases hprint
    exact Machine.feed_scalar hm (scanToken_int n hrest)
  | float x =>
    intro l depth cs rest m stack hprint hm hrest
    cases hprint
    exact Machine.feed_scalar hm (scanToken_float x hrest)
  | text s => exact readsBack_text s
  | list _ ih => exact readsBack_list ih
  | map distinct texts _ ih => exact readsBack_map distinct texts ih

/-- Reading undoes printing, with blanks behind the document. -/
theorem read_print {v : Value} (hv : v.Plain) {l : Layout} {cs ws : List Char}
    (hprint : print l 0 v = some cs) (hws : ∀ c ∈ ws, isSpace c = true) : read (cs ++ ws) = some v := by
  have hrest : EndsNumber ws := by
    cases ws with
    | nil => exact endsNumber_nil
    | cons c ws => exact endsNumber_of_space (hws c List.mem_cons_self) ws
  have hfeed := readsBack_of_plain hv hprint (Machine.awaits_value []) hrest
  have htokens : tokens ws = some [] := tokens_blank (List.dropWhile_eq_nil_iff.2 hws)
  calc read (cs ++ ws) = (Machine.start.feed (cs ++ ws)).bind Machine.result? := by
        rw [read, Machine.feed, Option.bind_assoc]
    _ = ((⟨[], .complete v⟩ : Machine).feed ws).bind Machine.result? := congrArg (Option.bind · _) hfeed
    _ = some v := by
        rw [Machine.feed, htokens]
        rfl

end Json
end Foreach

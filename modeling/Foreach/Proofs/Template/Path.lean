import Foreach.Proofs.Text.Cut
import Foreach.Proofs.Text.Digits
import Foreach.Proofs.Value.Mapping
import Foreach.Template.Path

/-!
Where a path leads.

A path is a chain of steps, one for each of its segments, and none of them comes to null. A step goes from a
mapping by a text key and from a list or tuple by an index. What is found is what stands at the end of the
chain, so a path of two halves leads where the second half leads from the end of the first.

A path also has a position to lead to, told by the numbers of the entries and elements on the way. Of all the
paths to one position just one is plain; the others have zeros in front of its indices.
-/

namespace Foreach.Path

open Text (Denotes IsSplit isSplit_iff)

/-- One step into a value. Only mappings, lists and tuples have any. -/
inductive Steps : Value → List Char → Value → Prop
  | entry {before after : Mapping} {name : String} {v : Value} (hfirst : ∀ e ∈ before, e.1 ≠ .text name) :
      Steps (.map (before ++ (.text name, v) :: after)) name.toList v
  | item {items : List Value} {segment : List Char} {i : Nat} {v : Value} (hindex : Denotes segment i)
      (hitem : items[i]? = some v) : Steps (.list items) segment v
  | part {items : List Value} {segment : List Char} {i : Nat} {v : Value} (hindex : Denotes segment i)
      (hitem : items[i]? = some v) : Steps (.tuple items) segment v

/-- The segments lead from the first value to the second, step by step, and never to null. -/
inductive Leads : Value → List (List Char) → Value → Prop
  | nil (v : Value) : Leads v [] v
  | cons {v w target : Value} {segment : List Char} {segments : List (List Char)} (hstep : Steps v segment w)
      (hpresent : w ≠ .null) (hrest : Leads w segments target) : Leads v (segment :: segments) target

variable {v w : Value} {segment : List Char} {segments : List (List Char)} {items : List Value}

/-! ### One step -/

theorem index?_eq_some_iff {i : Nat} : index? segment = some i ↔ Denotes segment i := by
  rw [Text.denotes_iff, index?]
  split
  next h =>
    obtain ⟨hne, hdigits⟩ := h
    rw [List.all_eq_true] at hdigits
    rw [Option.some.injEq]
    exact ⟨fun heq => ⟨hne, hdigits, heq⟩, fun h => h.2.2⟩
  next h =>
    refine iff_of_false nofun ?_
    rintro ⟨hne, hdigits, -⟩
    exact h ⟨hne, List.all_eq_true.2 hdigits⟩

theorem item?_eq_some_iff : (index? segment).bind (items[·]?) = some w ↔
    ∃ i, Denotes segment i ∧ items[i]? = some w := by
  simp only [Option.bind_eq_some_iff, index?_eq_some_iff]

theorem child?_eq_some_iff : child? v segment = some w ↔ Steps v segment w := by
  constructor
  · intro h
    cases v with
    | map es =>
      obtain ⟨before, after, rfl, hfirst⟩ := Mapping.getText?_eq_some_iff.1 h
      have hstep : Steps (.map (before ++ (.text (String.ofList segment), w) :: after)) _ w := .entry hfirst
      rwa [String.toList_ofList] at hstep
    | list items =>
      obtain ⟨i, hindex, hitem⟩ := item?_eq_some_iff.1 h
      exact .item hindex hitem
    | tuple items =>
      obtain ⟨i, hindex, hitem⟩ := item?_eq_some_iff.1 h
      exact .part hindex hitem
    | _ => cases h
  · intro h
    cases h with
    | entry hfirst =>
      rw [child?, String.ofList_toList]
      exact Mapping.getText?_eq_some_iff.2 ⟨_, _, rfl, hfirst⟩
    | item hindex hitem => exact item?_eq_some_iff.2 ⟨_, hindex, hitem⟩
    | part hindex hitem => exact item?_eq_some_iff.2 ⟨_, hindex, hitem⟩

theorem present_eq_some_iff : present v = some w ↔ v = w ∧ w ≠ .null := by
  cases v with
  | null => exact iff_of_false nofun fun h => h.2 h.1.symm
  | _ =>
    refine Option.some_inj.trans ⟨fun h => ⟨h, ?_⟩, And.left⟩
    rintro rfl
    cases h

theorem step_eq_some_iff : step v segment = some w ↔ Steps v segment w ∧ w ≠ .null := by
  simp [step, Option.bind_eq_some_iff, present_eq_some_iff, child?_eq_some_iff]

/-! ### A whole path -/

theorem follow_eq_some_iff : follow v segments = some w ↔ Leads v segments w := by
  induction segments generalizing v with
  | nil =>
    rw [follow, Option.some.injEq]
    constructor
    · rintro rfl
      exact .nil v
    · rintro ⟨⟩
      rfl
  | cons segment segments ih =>
    rw [follow, Option.bind_eq_some_iff]
    constructor
    · rintro ⟨u, hstep, hrest⟩
      obtain ⟨hstep, hpresent⟩ := step_eq_some_iff.1 hstep
      exact .cons hstep hpresent (ih.1 hrest)
    · intro h
      cases h with
      | cons hstep hpresent hrest => exact ⟨_, step_eq_some_iff.2 ⟨hstep, hpresent⟩, ih.2 hrest⟩

theorem follow_append (v : Value) (front back : List (List Char)) :
    follow v (front ++ back) = (follow v front).bind (follow · back) := by
  induction front generalizing v with
  | nil => rfl
  | cons segment front ih =>
    rw [List.cons_append, follow, follow, Option.bind_assoc]
    exact congrArg _ (funext ih)

/-- Looking up a path is following it. A value is found just if its segments, the parts between its dots, lead
there, and behind a dot the path goes on from the value that was found in front of it. -/
theorem lookup_follows_path (vars : Value) (path : List Char) :
    (∀ v, lookup vars path = some v ↔ ∃ segments, IsSplit '.' path segments ∧ Leads vars segments v) ∧
      ∀ rest, lookup vars (path ++ '.' :: rest) = (lookup vars path).bind fun v => lookup v rest := by
  refine ⟨fun v => ?_, fun rest => ?_⟩
  · rw [lookup, follow_eq_some_iff]
    simp only [isSplit_iff, exists_eq_left]
    rfl
  · simp only [lookup, segments, Text.split_append, follow_append]

/-- An index may have zeros in front, and an empty segment is a key like any other. -/
example : lookup (.record [("a", .list [.null, .record [("", .int 1)]])]) "a.01.".toList = some (.int 1) := by rfl

/-! ### Positions -/

/-- A place inside a value: the numbers of the entries and elements on the way to it, from the outside in. -/
abbrev Position := List Nat

/-- What stands directly inside a value, in order. -/
def parts : Value → List Value
  | .map es => es.map (·.2)
  | .list items | .tuple items => items
  | _ => []

/-- What stands at a position. -/
def valueAt? : Value → Position → Option Value
  | v, [] => some v
  | v, n :: position => (parts v)[n]?.bind (valueAt? · position)

/-- One step into a value, with the number of what it comes to: a mapping is entered where the segment is a key
for the first time, a list or tuple at the index that the segment denotes. -/
inductive Enters : Value → List Char → Nat → Value → Prop
  | entry {es : Mapping} {segment : List Char} {n : Nat} {v : Value}
      (hentry : es[n]? = some (.text (String.ofList segment), v))
      (hfirst : ∀ m < n, ∀ w, es[m]? ≠ some (.text (String.ofList segment), w)) : Enters (.map es) segment n v
  | item {items : List Value} {segment : List Char} {n : Nat} {v : Value} (hindex : Denotes segment n)
      (hitem : items[n]? = some v) : Enters (.list items) segment n v
  | part {items : List Value} {segment : List Char} {n : Nat} {v : Value} (hindex : Denotes segment n)
      (hitem : items[n]? = some v) : Enters (.tuple items) segment n v

/-- The segments lead to a position, where the second value stands, and come by no null. -/
inductive Reaches : Value → List (List Char) → Position → Value → Prop
  | nil (v : Value) : Reaches v [] [] v
  | cons {v w target : Value} {segment : List Char} {segments : List (List Char)} {n : Nat} {position : Position}
      (hstep : Enters v segment n w) (hpresent : w ≠ .null) (hrest : Reaches w segments position target) :
      Reaches v (segment :: segments) (n :: position) target

/-- The segment is a plain one for a value: for a list or tuple it is the numeral of a number, and nothing
stands in front of that. -/
def IsPlainFor : Value → List Char → Prop
  | .list _, segment | .tuple _, segment => ∃ n, segment = Nat.toDigits 10 n
  | _, _ => True

/-- Every segment is a plain one for the value that it steps into. -/
inductive Plain : Value → List (List Char) → Prop
  | nil (v : Value) : Plain v []
  | cons {v : Value} {segment : List Char} {segments : List (List Char)} (hplain : IsPlainFor v segment)
      (hrest : ∀ w, Steps v segment w → Plain w segments) : Plain v (segment :: segments)

section Positions

variable {target target' : Value} {m n : Nat} {position position' : Position} {segment' : List Char}
  {segments' : List (List Char)}

theorem parts_of_enters (h : Enters v segment n w) : (parts v)[n]? = some w := by
  cases h with
  | entry hentry _ => simp [parts, hentry]
  | item _ hitem => exact hitem
  | part _ hitem => exact hitem

theorem steps_iff_enters : Steps v segment w ↔ ∃ n, Enters v segment n w := by
  rw [← child?_eq_some_iff]
  constructor
  · intro h
    cases v with
    | map es =>
      obtain ⟨before, after, rfl, hfirst⟩ := Mapping.getText?_eq_some_iff.1 h
      refine ⟨before.length, .entry (by simp) fun m hm u hu => ?_⟩
      rw [List.getElem?_append_left hm] at hu
      exact hfirst _ (List.mem_of_getElem? hu) rfl
    | list items =>
      obtain ⟨i, hindex, hitem⟩ := item?_eq_some_iff.1 h
      exact ⟨i, .item hindex hitem⟩
    | tuple items =>
      obtain ⟨i, hindex, hitem⟩ := item?_eq_some_iff.1 h
      exact ⟨i, .part hindex hitem⟩
    | _ => cases h
  · rintro ⟨n, h⟩
    cases h with
    | @entry es _ _ _ hentry hfirst =>
      obtain ⟨hn, hget⟩ := List.getElem?_eq_some_iff.1 hentry
      refine Mapping.getText?_eq_some_iff.2 ⟨es.take n, es.drop (n + 1), ?_, fun e he heq => ?_⟩
      · rw [← hget, ← List.drop_eq_getElem_cons hn, List.take_append_drop]
      · obtain ⟨m, hm⟩ := List.mem_iff_getElem?.1 he
        obtain ⟨hlength, -⟩ := List.getElem?_eq_some_iff.1 hm
        have hlt : m < n := Nat.lt_of_lt_of_le hlength (List.length_take_le n es)
        rw [List.getElem?_take_of_lt hlt] at hm
        exact hfirst m hlt e.2 (heq ▸ hm)
    | item hindex hitem => exact item?_eq_some_iff.2 ⟨_, hindex, hitem⟩
    | part hindex hitem => exact item?_eq_some_iff.2 ⟨_, hindex, hitem⟩

/-- A segment has one place to enter a value at. -/
theorem Enters.unique (h : Enters v segment m w) (h' : Enters v segment n target) : m = n := by
  cases h with
  | entry hentry hfirst =>
    cases h' with
    | entry hentry' hfirst' =>
      rcases Nat.lt_trichotomy m n with hlt | heq | hlt
      · exact absurd hentry (hfirst' m hlt w)
      · exact heq
      · exact absurd hentry' (hfirst n hlt target)
  | item hindex _ =>
    cases h' with
    | item hindex' _ => exact hindex.unique hindex'
  | part hindex _ =>
    cases h' with
    | part hindex' _ => exact hindex.unique hindex'

theorem toDigits_of_denotes (h : Denotes segment n) (hplain : ∃ m, segment = Nat.toDigits 10 m) :
    segment = Nat.toDigits 10 n := by
  obtain ⟨m, rfl⟩ := hplain
  rw [(Text.denotes_toDigits m).unique h]

/-- No two plain segments enter a value at one place. -/
theorem Enters.plain_unique (hplain : IsPlainFor v segment) (hplain' : IsPlainFor v segment')
    (h : Enters v segment n w) (h' : Enters v segment' n target) : segment = segment' := by
  cases h with
  | entry hentry _ =>
    cases h' with
    | entry hentry' _ =>
      have hkey := congrArg Prod.fst (Option.some.inj (hentry.symm.trans hentry'))
      exact String.ofList_injective (Key.text.inj hkey)
  | item hindex _ =>
    cases h' with
    | item hindex' _ => rw [toDigits_of_denotes hindex hplain, toDigits_of_denotes hindex' hplain']
  | part hindex _ =>
    cases h' with
    | part hindex' _ => rw [toDigits_of_denotes hindex hplain, toDigits_of_denotes hindex' hplain']

theorem Plain.of_steps (hfirst : IsPlainFor v segment) (hstep : Steps v segment w) (hrest : Plain w segments) :
    Plain v (segment :: segments) := by
  refine .cons hfirst fun u hu => ?_
  cases (child?_eq_some_iff.2 hu).symm.trans (child?_eq_some_iff.2 hstep)
  exact hrest

/-- Whatever a segment enters, a plain one without dots enters too. -/
theorem Enters.exists_plain (hdot : '.' ∉ segment) (h : Enters v segment n w) :
    ∃ plain, IsPlainFor v plain ∧ '.' ∉ plain ∧ Enters v plain n w := by
  have hdigits : '.' ∉ Nat.toDigits 10 n := by
    intro hmem
    exact absurd (Text.allDigits_toDigits n '.' hmem) (by decide)
  cases h with
  | entry hentry hfirst => exact ⟨segment, trivial, hdot, .entry hentry hfirst⟩
  | item _ hitem => exact ⟨_, ⟨n, rfl⟩, hdigits, .item (Text.denotes_toDigits n) hitem⟩
  | part _ hitem => exact ⟨_, ⟨n, rfl⟩, hdigits, .part (Text.denotes_toDigits n) hitem⟩

theorem leads_iff_reaches : Leads v segments target ↔ ∃ position, Reaches v segments position target := by
  constructor
  · intro h
    induction h with
    | nil v => exact ⟨[], .nil v⟩
    | cons hstep hpresent _ ih =>
      obtain ⟨n, hstep⟩ := steps_iff_enters.1 hstep
      obtain ⟨position, hrest⟩ := ih
      exact ⟨n :: position, .cons hstep hpresent hrest⟩
  · rintro ⟨position, h⟩
    induction h with
    | nil v => exact .nil v
    | cons hstep hpresent _ ih => exact .cons (steps_iff_enters.2 ⟨_, hstep⟩) hpresent ih

theorem Reaches.valueAt? (h : Reaches v segments position target) : valueAt? v position = some target := by
  induction h with
  | nil v => rfl
  | cons hstep _ _ ih => rw [Path.valueAt?, parts_of_enters hstep, Option.bind_some, ih]

theorem Reaches.unique (h : Reaches v segments position target) (h' : Reaches v segments position' target') :
    position = position' := by
  induction h generalizing position' with
  | nil v =>
    cases h'
    rfl
  | cons hstep _ _ ih =>
    cases h' with
    | cons hstep' _ hrest' =>
      obtain rfl := hstep.unique hstep'
      cases (parts_of_enters hstep).symm.trans (parts_of_enters hstep')
      rw [ih hrest']

/-- No two plain ways lead to one position. -/
theorem Reaches.plain_unique (hplain : Plain v segments) (hplain' : Plain v segments')
    (h : Reaches v segments position target) (h' : Reaches v segments' position target') :
    segments = segments' := by
  induction h generalizing segments' with
  | nil v =>
    cases h'
    rfl
  | cons hstep _ _ ih =>
    cases h' with
    | cons hstep' _ hrest' =>
      cases (parts_of_enters hstep).symm.trans (parts_of_enters hstep')
      cases hplain with
      | cons hfirst hrest =>
        cases hplain' with
        | cons hfirst' hrest'' =>
          obtain rfl := hstep.plain_unique hfirst hfirst' hstep'
          have hnext := steps_iff_enters.2 ⟨_, hstep⟩
          rw [ih (hrest _ hnext) (hrest'' _ hnext) hrest']

theorem Reaches.exists_plain (hdots : ∀ segment ∈ segments, '.' ∉ segment)
    (h : Reaches v segments position target) :
    ∃ plain, Plain v plain ∧ (∀ segment ∈ plain, '.' ∉ segment) ∧ plain.length = segments.length ∧
      Reaches v plain position target := by
  induction h with
  | nil v => exact ⟨[], .nil v, List.forall_mem_nil _, rfl, .nil v⟩
  | @cons v w _ _ _ n _ hstep hpresent _ ih =>
    obtain ⟨hdot, hdots⟩ := List.forall_mem_cons.1 hdots
    obtain ⟨first, hfirst, hbare, hfirstStep⟩ := hstep.exists_plain hdot
    obtain ⟨rest, hrest, hbares, hlength, hreaches⟩ := ih hdots
    refine ⟨first :: rest, .of_steps hfirst (steps_iff_enters.2 ⟨_, hfirstStep⟩) hrest,
      List.forall_mem_cons.2 ⟨hbare, hbares⟩, ?_, .cons hfirstStep hpresent hreaches⟩
    rw [List.length_cons, List.length_cons, hlength]

end Positions

/-- The path leads to this position. -/
def Points (vars : Value) (path : List Char) (position : Position) : Prop :=
  ∃ v, Reaches vars (Path.segments path) position v

theorem element_enters_iff {items : List Value} {segment : List Char} {n : Nat} {v w : Value}
    (h : w = .list items ∨ w = .tuple items) : Enters w segment n v ↔
      items[n]? = some v ∧ ∃ zeros, segment = List.replicate zeros '0' ++ Nat.toDigits 10 n := by
  rw [← Text.denotes_iff_zeros]
  constructor
  · intro henters
    rcases h with rfl | rfl
    · cases henters with
      | item hindex hitem => exact ⟨hitem, hindex⟩
    · cases henters with
      | part hindex hitem => exact ⟨hitem, hindex⟩
  · rintro ⟨hitem, hindex⟩
    rcases h with rfl | rfl
    · exact .item hindex hitem
    · exact .part hindex hitem

/-- Plain paths are addresses. A path finds what stands at the one position that it leads to. Two plain paths
lead to different positions if they differ, and to every position that a path leads to, exactly one plain path
leads. A segment leads to an element of a list or tuple just if it is the numeral of its number, perhaps with
zeros in front, which a plain segment has not. -/
theorem plain_paths_are_addresses (vars : Value) :
    (∀ path v, lookup vars path = some v ↔
      ∃ position, Points vars path position ∧ valueAt? vars position = some v) ∧
    (∀ path a b, Points vars path a → Points vars path b → a = b) ∧
    (∀ p q a b, p ≠ q → Plain vars (Path.segments p) → Plain vars (Path.segments q) → Points vars p a →
      Points vars q b → a ≠ b) ∧
    (∀ path a, Points vars path a → ∃! plain, Plain vars (Path.segments plain) ∧ Points vars plain a) ∧
    ∀ items segment n v w, w = .list items ∨ w = .tuple items → (Enters w segment n v ↔
      items[n]? = some v ∧ ∃ zeros, segment = List.replicate zeros '0' ++ Nat.toDigits 10 n) := by
  have hplain : ∀ p q a, Plain vars (Path.segments p) → Plain vars (Path.segments q) → Points vars p a →
      Points vars q a → p = q := by
    rintro p q a hp hq ⟨v, hv⟩ ⟨w, hw⟩
    exact Text.split_injective '.' (hv.plain_unique hp hq hw)
  refine ⟨fun path v => ?_, ?_, ?_, ?_, fun _ _ _ _ _ => element_enters_iff⟩
  · rw [lookup, follow_eq_some_iff, leads_iff_reaches]
    constructor
    · rintro ⟨position, h⟩
      exact ⟨position, ⟨v, h⟩, h.valueAt?⟩
    · rintro ⟨position, ⟨w, h⟩, hvalue⟩
      cases h.valueAt?.symm.trans hvalue
      exact ⟨position, h⟩
  · rintro path a b ⟨v, hv⟩ ⟨w, hw⟩
    exact hv.unique hw
  · rintro p q a b hne hp hq hpa hqb rfl
    exact hne (hplain p q a hp hq hpa hqb)
  · rintro path a ⟨v, h⟩
    obtain ⟨plain, hplainly, hbare, hlength, hreaches⟩ := h.exists_plain fun _ => Text.not_mem_of_mem_split
    have hnonempty : plain ≠ [] := by
      rintro rfl
      exact Text.split_ne_nil '.' path (List.length_eq_zero_iff.1 hlength.symm)
    -- There is no dot in the plain segments, so that they are those of a path.
    have hsegments : Path.segments (['.'].intercalate plain) = plain :=
      (Text.isSplit_iff.1 ⟨hnonempty, hbare, rfl⟩).symm
    rw [← hsegments] at hplainly hreaches
    exact ⟨_, ⟨hplainly, v, hreaches⟩, fun other hother => hplain other _ a hother.1 hplainly hother.2 ⟨v, hreaches⟩⟩

/-- A list under a key that is a numeral with a zero in front. -/
def rows : Value := .record [("01", .list [.text "a", .text "b"])]

theorem enters_rows : Enters rows "01".toList 0 (.list [.text "a", .text "b"]) := by
  refine .entry ?_ fun m h => absurd h (Nat.not_lt_zero m)
  rw [String.ofList_toList]
  rfl

theorem points_rows {index : List Char} {n : Nat} {v : Value} (hindex : Denotes index n) (hdot : '.' ∉ index)
    (hitem : [Value.text "a", .text "b"][n]? = some v) (hpresent : v ≠ .null) :
    Points rows ("01".toList ++ '.' :: index) [0, n] := by
  have hsegments : Path.segments ("01".toList ++ '.' :: index) = ["01".toList, index] := by
    simp only [Path.segments, Text.split_append, Text.split_of_not_mem hdot]
    rfl
  refine ⟨v, ?_⟩
  rw [hsegments]
  exact .cons enters_rows (by simp) (.cons (.item hindex hitem) hpresent (.nil v))

theorem plain_rows {n : Nat} {v : Value} (hitem : [Value.text "a", .text "b"][n]? = some v) :
    Plain rows ["01".toList, Nat.toDigits 10 n] := by
  refine .of_steps trivial (steps_iff_enters.2 ⟨0, enters_rows⟩) ?_
  exact .of_steps ⟨n, rfl⟩ (.item (Text.denotes_toDigits n) hitem) (.nil v)

/-- A key may have a zero in front and an index may not: the one path has a plain one beside it, and the two
plain ones lead apart. -/
theorem plain_paths_are_addresses_rows :
    Points rows "01.01".toList [0, 1] ∧
    (∃! plain, Plain rows (Path.segments plain) ∧ Points rows plain [0, 1]) ∧
    Plain rows (Path.segments "01.0".toList) ∧ Plain rows (Path.segments "01.1".toList) ∧
    Points rows "01.0".toList [0, 0] ∧ Points rows "01.1".toList [0, 1] ∧ ([0, 0] : Position) ≠ [0, 1] := by
  obtain ⟨-, -, hdiffer, hunique, -⟩ := plain_paths_are_addresses rows
  have hpadded : Points rows "01.01".toList [0, 1] :=
    points_rows (Text.denotes_iff_zeros.2 ⟨1, rfl⟩ : Denotes "01".toList 1) (by decide) rfl (by simp)
  have hfirst : Points rows "01.0".toList [0, 0] := points_rows (Text.denotes_toDigits 0) (by decide) rfl (by simp)
  have hsecond : Points rows "01.1".toList [0, 1] := points_rows (Text.denotes_toDigits 1) (by decide) rfl (by simp)
  have hplain : Plain rows (Path.segments "01.0".toList) := plain_rows (n := 0) rfl
  have hplain' : Plain rows (Path.segments "01.1".toList) := plain_rows (n := 1) rfl
  exact ⟨hpadded, hunique _ _ hpadded, hplain, hplain', hfirst, hsecond,
    hdiffer _ _ _ _ (by decide) hplain hplain' hfirst hsecond⟩

/-- A zero in front of an index makes another path to the same element. -/
theorem padded_index_is_an_alias :
    (¬∀ vars p q a b, p ≠ q → Points vars p a → Points vars q b → a ≠ b) ∧
    ¬∀ items segment n v, Enters (.list items) segment n v ↔
      items[n]? = some v ∧ segment = Nat.toDigits 10 n := by
  have hpadded : Denotes "01".toList 1 := Text.denotes_iff_zeros.2 ⟨1, rfl⟩
  constructor
  · intro h
    exact h rows _ _ _ _ (by decide) (points_rows hpadded (by decide) rfl (by simp))
      (points_rows (Text.denotes_toDigits 1) (by decide) rfl (by simp)) rfl
  · intro h
    have henters : Enters (.list [.text "a", .text "b"]) "01".toList 1 (.text "b") := .item hpadded rfl
    exact absurd ((h _ _ _ _).1 henters).2 (by decide)

end Foreach.Path

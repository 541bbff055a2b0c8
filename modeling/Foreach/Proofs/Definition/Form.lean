import Foreach.Definition.Document
import Foreach.Proofs.Definition.Key
import Foreach.Proofs.Json.RoundTrip
import Foreach.Proofs.Value.Nested

/-!
Document forms.

What a value becomes in a document is plain, and becomes itself again: no key of a document holds half a
character, so each is taken up as it is. A value that is plain from the start is its own document form,
and so is a spec, unless half a character stands in one of its keys.
-/

namespace Foreach

theorem map_eq_ok {ε α β : Type} {f : α → β} {x : Except ε α} {b : β} (h : x.map f = .ok b) :
    ∃ a, x = .ok a ∧ f a = b := by
  cases x with
  | error e => cases h
  | ok a => exact ⟨a, rfl, Except.ok.inj h⟩

theorem map_eq_error {ε α β : Type} {f : α → β} {x : Except ε α} {e : ε} (h : x.map f = .error e) : x = .error e := by
  cases x with
  | error e' =>
    cases h
    rfl
  | ok a => cases h

theorem eq_ok_of_toOption {ε α : Type} {x : Except ε α} {a : α} (h : x.toOption = some a) : x = .ok a := by
  cases x with
  | error e => cases h
  | ok b =>
    cases h
    rfl

namespace Document

theorem ofValues_eq_ok {room : Nat} {vs ws : List Value} (h : ofValues room vs = .ok ws) :
    ∀ w ∈ ws, ∃ v ∈ vs, ofValue room v = .ok w := by
  induction vs generalizing ws with
  | nil =>
    cases h
    exact List.forall_mem_nil _
  | cons v vs ih =>
    rw [ofValues] at h
    split at h
    next => cases h
    next w hw =>
      obtain ⟨rest, hrest, rfl⟩ := map_eq_ok h
      refine List.forall_mem_cons.2 ⟨⟨v, List.mem_cons_self, hw⟩, fun x hx => ?_⟩
      obtain ⟨u, hu, hux⟩ := ih hrest x hx
      exact ⟨u, List.mem_cons_of_mem _ hu, hux⟩

theorem ofValues_self {room : Nat} {ws : List Value} (h : ∀ w ∈ ws, ofValue room w = .ok w) :
    ofValues room ws = .ok ws := by
  induction ws with
  | nil => rfl
  | cons w ws ih =>
    obtain ⟨hw, hws⟩ := List.forall_mem_cons.1 h
    simp only [ofValues, hw, ih hws, Except.map]

theorem ofEntries_eq_ok {room : Nat} {es entries : List (Key × Value)} (h : ofEntries room es = .ok entries) :
    Mapping.All (fun w => ∃ e ∈ es, ofValue room e.2 = .ok w) entries := by
  induction es generalizing entries with
  | nil =>
    cases h
    exact ⟨List.forall_mem_nil _, List.forall_mem_nil _⟩
  | cons e es ih =>
    obtain ⟨k, v⟩ := e
    rw [ofEntries] at h
    split at h
    next => cases h
    next t _ =>
      split at h
      next => cases h
      next w hw =>
        obtain ⟨rest, hrest, rfl⟩ := map_eq_ok h
        obtain ⟨htexts, hvalues⟩ := ih hrest
        refine ⟨List.forall_mem_cons.2 ⟨⟨_, rfl⟩, htexts⟩,
          List.forall_mem_cons.2 ⟨⟨(k, v), List.mem_cons_self, hw⟩, fun x hx => ?_⟩⟩
        obtain ⟨u, hu, hux⟩ := hvalues x hx
        exact ⟨u, List.mem_cons_of_mem _ hu, hux⟩

/-- Every key is a text in which no half stands. -/
def WholeKeys (m : Mapping) : Prop := ∀ k ∈ Mapping.keys m, ∃ name : String, k = .text name ∧ Text.Whole name.toList

theorem WholeKeys.ofEntries {es : Mapping} (h : WholeKeys es) : WholeKeys (Mapping.ofEntries es) :=
  fun k hk => h k (Mapping.mem_keys_ofEntries hk)

theorem wholeKeys_ofEntries {room : Nat} {es entries : List (Key × Value)}
    (h : ofEntries room es = .ok entries) : WholeKeys entries := by
  induction es generalizing entries with
  | nil =>
    cases h
    exact List.forall_mem_nil _
  | cons e es ih =>
    obtain ⟨k, v⟩ := e
    rw [ofEntries] at h
    split at h
    next => cases h
    next t ht =>
      split at h
      next => cases h
      next w _ =>
        obtain ⟨rest, hrest, rfl⟩ := map_eq_ok h
        refine List.forall_mem_cons.2 ⟨⟨String.ofList t, rfl, ?_⟩, ih hrest⟩
        rw [String.toList_ofList]
        exact whole_keyText ht

theorem keyText_of_whole {name : String} (h : Text.Whole name.toList) :
    keyText (.text name) = .ok name.toList := by
  simp only [keyText, Utf8.encode?_of_whole h]

theorem ofEntries_self {room : Nat} {es : List (Key × Value)} (hkeys : WholeKeys es)
    (h : ∀ e ∈ es, ofValue room e.2 = .ok e.2) : ofEntries room es = .ok es := by
  induction es with
  | nil => rfl
  | cons e es ih =>
    obtain ⟨k, v⟩ := e
    obtain ⟨⟨name, hname, hwhole⟩, hrest⟩ := List.forall_mem_cons.1 hkeys
    obtain ⟨hv, hes⟩ := List.forall_mem_cons.1 h
    obtain rfl : k = .text name := hname
    simp only at hv
    simp only [ofEntries, keyText_of_whole hwhole, hv, ih hrest hes, Except.map, String.ofList_toList]

theorem room_ne_zero {room : Nat} {v w : Value} (h : ofValue room v = .ok w) : room ≠ 0 := by
  rintro rfl
  rw [ofValue.eq_def, if_pos rfl] at h
  cases h

theorem ofValue_plain {v w : Value} {room : Nat} (h : ofValue room v = .ok w) : w.Plain := by
  induction v using Value.nested generalizing room w with
  | null | bool | int | text | date | moment =>
    have hroom := room_ne_zero h
    rw [ofValue, if_neg hroom] at h
    cases h
    constructor
  | float x =>
    have hroom := room_ne_zero h
    rw [ofValue, if_neg hroom] at h
    cases h
    cases x <;> constructor
  | bytes bs =>
    have hroom := room_ne_zero h
    rw [ofValue, if_neg hroom] at h
    obtain ⟨cs, -, rfl⟩ := map_eq_ok h
    constructor
  | list vs ih | tuple vs ih =>
    have hroom := room_ne_zero h
    rw [ofValue, if_neg hroom] at h
    obtain ⟨ws, hws, rfl⟩ := map_eq_ok h
    refine .list fun w hw => ?_
    obtain ⟨v, hv, hvw⟩ := ofValues_eq_ok hws w hw
    exact ih v hv hvw
  | map es ih =>
    have hroom := room_ne_zero h
    rw [ofValue, if_neg hroom] at h
    obtain ⟨entries, hentries, rfl⟩ := map_eq_ok h
    obtain ⟨htexts, hvalues⟩ := (ofEntries_eq_ok hentries).ofEntries
    refine .map (Mapping.distinct_ofEntries _) htexts fun e he => ?_
    obtain ⟨u, hu, hue⟩ := hvalues e he
    exact ih u hu hue

/-- A document form is its own document form. -/
theorem ofValue_self {v w : Value} {room : Nat} (h : ofValue room v = .ok w) : ofValue room w = .ok w := by
  induction v using Value.nested generalizing room w with
  | null | bool | int | text | date | moment =>
    have hroom := room_ne_zero h
    rw [ofValue, if_neg hroom] at h
    cases h
    rw [ofValue, if_neg hroom]
  | float x =>
    have hroom := room_ne_zero h
    rw [ofValue, if_neg hroom] at h
    cases h
    cases x <;> exact if_neg hroom
  | bytes bs =>
    have hroom := room_ne_zero h
    rw [ofValue, if_neg hroom] at h
    obtain ⟨cs, -, rfl⟩ := map_eq_ok h
    rw [ofValue, if_neg hroom]
  | list vs ih | tuple vs ih =>
    have hroom := room_ne_zero h
    rw [ofValue, if_neg hroom] at h
    obtain ⟨ws, hws, rfl⟩ := map_eq_ok h
    have hself : ∀ w ∈ ws, ofValue (room - 1) w = .ok w := by
      intro w hmem
      obtain ⟨v, hv, hvw⟩ := ofValues_eq_ok hws w hmem
      exact ih v hv hvw
    simp only [ofValue, if_neg hroom, ofValues_self hself, Except.map]
  | map es ih =>
    have hroom := room_ne_zero h
    rw [ofValue, if_neg hroom] at h
    obtain ⟨entries, hentries, rfl⟩ := map_eq_ok h
    obtain ⟨-, hvalues⟩ := (ofEntries_eq_ok hentries).ofEntries
    have hself : ∀ e ∈ Mapping.ofEntries entries, ofValue (room - 1) e.2 = .ok e.2 := by
      intro e he
      obtain ⟨u, hu, hue⟩ := hvalues e he
      exact ih u hu hue
    simp only [ofValue, if_neg hroom, ofEntries_self (wholeKeys_ofEntries hentries).ofEntries hself, Except.map,
      Mapping.ofEntries_of_distinct (Mapping.distinct_ofEntries entries)]

/-! ### Plain values -/

theorem ofValues_of_self {room : Nat} {vs ws : List Value} (h : ofValues room vs = .ok ws)
    (hself : ∀ v ∈ vs, ∀ w, ofValue room v = .ok w → w = v) : ws = vs := by
  induction vs generalizing ws with
  | nil =>
    cases h
    rfl
  | cons v vs ih =>
    obtain ⟨hv, hvs⟩ := List.forall_mem_cons.1 hself
    rw [ofValues] at h
    split at h
    next => cases h
    next w hw =>
      obtain ⟨rest, hrest, rfl⟩ := map_eq_ok h
      rw [hv w hw, ih hrest hvs]

theorem keyText_text {name : String} {t : List Char} (h : keyText (.text name) = .ok t) : String.ofList t = name := by
  rw [keyText] at h
  split at h
  next => cases h
  next =>
    cases h
    exact String.ofList_toList

theorem ofEntries_of_self {room : Nat} {es entries : List (Key × Value)} (h : ofEntries room es = .ok entries)
    (htexts : Mapping.Texts es) (hself : ∀ e ∈ es, ∀ w, ofValue room e.2 = .ok w → w = e.2) : entries = es := by
  induction es generalizing entries with
  | nil =>
    cases h
    rfl
  | cons e es ih =>
    obtain ⟨k, v⟩ := e
    obtain ⟨⟨name, hname⟩, hrestTexts⟩ := List.forall_mem_cons.1 htexts
    obtain ⟨hv, hes⟩ := List.forall_mem_cons.1 hself
    obtain rfl : k = .text name := hname
    rw [ofEntries] at h
    split at h
    next => cases h
    next t ht =>
      split at h
      next => cases h
      next w hw =>
        obtain ⟨rest, hrest, rfl⟩ := map_eq_ok h
        rw [keyText_text ht, hv w hw, ih hrest hrestTexts hes]

/-- A plain value that has a document form is that form. -/
theorem ofValue_of_plain {v w : Value} (hv : v.Plain) {room : Nat} (h : ofValue room v = .ok w) : w = v := by
  induction hv generalizing room w with
  | null | bool | int | float | text =>
    have hroom := room_ne_zero h
    rw [ofValue, if_neg hroom] at h
    cases h
    rfl
  | list _ ih =>
    have hroom := room_ne_zero h
    rw [ofValue, if_neg hroom] at h
    obtain ⟨ws, hws, rfl⟩ := map_eq_ok h
    rw [ofValues_of_self hws fun v hv w hw => ih v hv hw]
  | map hdistinct htexts _ ih =>
    have hroom := room_ne_zero h
    rw [ofValue, if_neg hroom] at h
    obtain ⟨entries, hentries, rfl⟩ := map_eq_ok h
    rw [ofEntries_of_self hentries htexts fun e he w hw => ih e he hw, Mapping.ofEntries_of_distinct hdistinct]

/-! ### Specs -/

theorem isHalf_replacement : Text.isHalf Utf8.replacement = false := by decide

theorem whole_mended (s : String) : Text.Whole (mended s).toList := by
  intro c hc
  rw [mended, String.toList_ofList] at hc
  obtain ⟨d, -, hd⟩ := List.mem_flatMap.1 hc
  split at hd
  next => rw [List.eq_of_mem_replicate hd, isHalf_replacement]
  next hwhole =>
    rw [List.mem_singleton.1 hd]
    exact Bool.eq_false_iff.2 hwhole

theorem mended_of_whole {s : String} (h : Text.Whole s.toList) : mended s = s := by
  have hchars : (s.toList.flatMap fun c =>
      if Text.isHalf c then List.replicate 3 Utf8.replacement else [c]) = s.toList := by
    generalize s.toList = cs at h
    induction cs with
    | nil => rfl
    | cons c cs ih =>
      obtain ⟨hc, hcs⟩ := List.forall_mem_cons.1 h
      rw [List.flatMap_cons, ih hcs, hc]
      rfl
  rw [mended, hchars, String.ofList_toList]

theorem ofSpec_eq_ok {m spec : Mapping} (h : ofSpec m = .ok spec) :
    Mapping.All (fun w => ∃ e ∈ m, ofValue depthLimit e.2 = .ok w) spec := by
  induction m generalizing spec with
  | nil =>
    cases h
    exact ⟨List.forall_mem_nil _, List.forall_mem_nil _⟩
  | cons e m ih =>
    obtain ⟨k, v⟩ := e
    rw [ofSpec] at h
    split at h
    next => cases h
    next w hw =>
      obtain ⟨rest, hrest, rfl⟩ := map_eq_ok h
      obtain ⟨htexts, hvalues⟩ := ih hrest
      refine ⟨List.forall_mem_cons.2 ⟨⟨_, rfl⟩, htexts⟩,
        List.forall_mem_cons.2 ⟨⟨(k, v), List.mem_cons_self, hw⟩, fun x hx => ?_⟩⟩
      obtain ⟨u, hu, hux⟩ := hvalues x hx
      exact ⟨u, List.mem_cons_of_mem _ hu, hux⟩

theorem wholeKeys_ofSpec {m spec : Mapping} (h : ofSpec m = .ok spec) : WholeKeys spec := by
  induction m generalizing spec with
  | nil =>
    cases h
    exact List.forall_mem_nil _
  | cons e m ih =>
    obtain ⟨k, v⟩ := e
    rw [ofSpec] at h
    split at h
    next => cases h
    next w _ =>
      obtain ⟨rest, hrest, rfl⟩ := map_eq_ok h
      exact List.forall_mem_cons.2 ⟨⟨_, rfl, whole_mended _⟩, ih hrest⟩

theorem ofSpec_self {m : Mapping} (hkeys : WholeKeys m) (h : ∀ e ∈ m, ofValue depthLimit e.2 = .ok e.2) :
    ofSpec m = .ok m := by
  induction m with
  | nil => rfl
  | cons e m ih =>
    obtain ⟨k, v⟩ := e
    obtain ⟨⟨name, hname, hwhole⟩, hrest⟩ := List.forall_mem_cons.1 hkeys
    obtain ⟨hv, hm⟩ := List.forall_mem_cons.1 h
    obtain rfl : k = .text name := hname
    have hdisplay : mended (Key.text name).display = name := mended_of_whole hwhole
    simp only at hv
    simp only [ofSpec, hv, ih hrest hm, Except.map, hdisplay]

/-- The document form of a spec is its own document form. -/
theorem ofSpec_ofEntries {m spec : Mapping} (h : ofSpec m = .ok spec) :
    ofSpec (Mapping.ofEntries spec) = .ok (Mapping.ofEntries spec) := by
  obtain ⟨-, hvalues⟩ := (ofSpec_eq_ok h).ofEntries
  refine ofSpec_self (wholeKeys_ofSpec h).ofEntries fun e he => ?_
  obtain ⟨u, -, hue⟩ := hvalues e he
  exact ofValue_self hue

/-- A plain spec with whole keys that has a document form is that form. -/
theorem ofSpec_of_plain {m spec : Mapping} (hkeys : WholeKeys m) (hvalues : ∀ e ∈ m, e.2.Plain)
    (h : ofSpec m = .ok spec) : spec = m := by
  induction m generalizing spec with
  | nil =>
    cases h
    rfl
  | cons e m ih =>
    obtain ⟨k, v⟩ := e
    obtain ⟨⟨name, hname, hwhole⟩, hrest⟩ := List.forall_mem_cons.1 hkeys
    obtain ⟨hv, hm⟩ := List.forall_mem_cons.1 hvalues
    obtain rfl : k = .text name := hname
    have hdisplay : mended (Key.text name).display = name := mended_of_whole hwhole
    rw [ofSpec] at h
    split at h
    next => cases h
    next w hw =>
      obtain ⟨rest, hspec, rfl⟩ := map_eq_ok h
      rw [hdisplay, ofValue_of_plain hv hw, ih hrest hm hspec]

end Document
end Foreach

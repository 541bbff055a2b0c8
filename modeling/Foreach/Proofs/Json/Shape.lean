import Foreach.Json.Reader
import Foreach.Proofs.Json.Token
import Foreach.Proofs.Value.Mapping

/-!
What kinds of values a JSON document can hold.

The tokens bring scalars alone, and the machine makes nothing but lists and mappings under texts of what is
complete. So no tuple, no bytes and no day or moment is ever read, however deep.
-/

namespace Foreach

/-- A value that a JSON document can hold. -/
inductive Value.IsJson : Value → Prop
  | null : IsJson .null
  | bool (b : Bool) : IsJson (.bool b)
  | int (n : Int) : IsJson (.int n)
  | float (x : Binary64) : IsJson (.float x)
  | text (s : String) : IsJson (.text s)
  | list {vs : List Value} (items : ∀ v ∈ vs, IsJson v) : IsJson (.list vs)
  | map {es : List (Key × Value)} (texts : Mapping.Texts es) (values : ∀ e ∈ es, IsJson e.2) : IsJson (.map es)

/-- What stands under a text in a mapping is a JSON value, too. -/
theorem Value.IsJson.of_getText? {es : List (Key × Value)} (h : (Value.map es).IsJson) {name : String}
    {v : Value} (hv : Mapping.getText? es name = some v) : v.IsJson := by
  cases h with
  | map texts values =>
    obtain ⟨e, hfind, rfl⟩ := Option.map_eq_some_iff.1 hv
    exact values e (List.mem_of_find?_eq_some hfind)

namespace Json

variable {cs r : List Char} {t : Token} {v : Value} {stack : List Frame} {entries : List (Key × Value)}

/-! ### Tokens -/

/-- The scalar of a token is a JSON value. -/
def Token.Sound : Token → Prop
  | .scalar v => v.IsJson
  | _ => True

theorem punctuation_sound {c : Char} (h : punctuation c = some t) : t.Sound := by
  unfold punctuation at h
  split_ifs at h <;> cases h <;> trivial

theorem words_isJson : ∀ word ∈ words, word.2.IsJson := by
  simp only [words, List.forall_mem_cons]
  exact ⟨.null, .bool true, .bool false, .float _, .float _, .float _, List.forall_mem_nil _⟩

theorem scanWord_sound (h : scanWord cs = some (t, r)) : t.Sound := by
  obtain ⟨word, hmem, hword⟩ := List.exists_of_findSome?_eq_some h
  obtain ⟨rest, -, heq⟩ := Option.map_eq_some_iff.1 hword
  cases heq
  exact words_isJson word hmem

theorem valueOf_isJson (n : Numeral) : (valueOf n).IsJson := by
  unfold valueOf
  split
  · exact .int _
  · exact .float _

theorem scanToken_sound (h : scanToken cs = some (t, r)) : t.Sound := by
  unfold scanToken at h
  split at h
  next => cases h
  next c rest =>
    split at h
    next u hmark =>
      cases h
      exact punctuation_sound hmark
    next =>
      split at h
      next =>
        obtain ⟨⟨ps, rest⟩, -, heq⟩ := Option.map_eq_some_iff.1 h
        cases heq
        trivial
      next =>
        split at h
        next found hword =>
          cases h
          exact scanWord_sound hword
        next =>
          obtain ⟨⟨n, rest⟩, -, heq⟩ := Option.map_eq_some_iff.1 h
          cases heq
          exact valueOf_isJson n

theorem tokens_sound {ts : List Token} (h : tokens cs = some ts) : ∀ t ∈ ts, t.Sound := by
  induction hlength : cs.length using Nat.strong_induction_on generalizing cs ts with
  | _ length ih =>
    by_cases hblank : cs.dropWhile isSpace = []
    · rw [tokens_blank hblank] at h
      cases h
      exact List.forall_mem_nil _
    · cases hscan : scanToken (cs.dropWhile isSpace) with
      | none =>
        rw [tokens_stuck hblank hscan] at h
        cases h
      | some found =>
        obtain ⟨t, r⟩ := found
        rw [tokens_scan hscan] at h
        obtain ⟨rest, hrest, rfl⟩ := Option.map_eq_some_iff.1 h
        have hshorter : r.length < length := by
          have hdrop := length_dropWhile_le isSpace cs
          have htoken := scanToken_length hscan
          omega
        exact List.forall_mem_cons.2 ⟨scanToken_sound hscan, ih _ hshorter hrest rfl⟩

/-! ### The machine -/

/-- What a container has so far are JSON values. -/
def Frame.Sound : Frame → Prop
  | .list items => ∀ v ∈ items, v.IsJson
  | .map entries _ => Mapping.All Value.IsJson entries

def Phase.Sound : Phase → Prop
  | .key entries | .colon entries _ => Mapping.All Value.IsJson entries
  | .complete v => v.IsJson
  | .value | .firstItem | .firstKey => True

structure Machine.Sound (m : Machine) : Prop where
  stack : ∀ f ∈ m.stack, f.Sound
  phase : m.phase.Sound

namespace Machine

variable {m m' : Machine}

theorem start_sound : start.Sound := ⟨List.forall_mem_nil _, trivial⟩

theorem beginValue_sound (hstack : ∀ f ∈ stack, f.Sound) (ht : t.Sound)
    (h : beginValue stack t = some m) : m.Sound := by
  cases t with
  | text s =>
    cases h
    exact ⟨hstack, .text s⟩
  | scalar v =>
    cases h
    exact ⟨hstack, ht⟩
  | openList =>
    cases h
    exact ⟨List.forall_mem_cons.2 ⟨List.forall_mem_nil _, hstack⟩, trivial⟩
  | openMap =>
    cases h
    exact ⟨hstack, trivial⟩
  | closeList | closeMap | comma | colon => cases h

theorem beginKey_sound (hstack : ∀ f ∈ stack, f.Sound) (hentries : Mapping.All Value.IsJson entries)
    (h : beginKey stack entries t = some m) : m.Sound := by
  cases t with
  | text s =>
    cases h
    exact ⟨hstack, hentries⟩
  | openList | closeList | openMap | closeMap | comma | colon | scalar => cases h

theorem all_cons {name : String} (hv : v.IsJson) (hentries : Mapping.All Value.IsJson entries) :
    Mapping.All Value.IsJson ((.text name, v) :: entries) :=
  ⟨List.forall_mem_cons.2 ⟨⟨name, rfl⟩, hentries.texts⟩, List.forall_mem_cons.2 ⟨hv, hentries.values⟩⟩

theorem map_isJson (hentries : Mapping.All Value.IsJson entries) :
    (Value.map (Mapping.ofEntries entries.reverse)).IsJson := by
  have hreverse : Mapping.All Value.IsJson entries.reverse :=
    ⟨fun e he => hentries.texts e (List.mem_reverse.1 he), fun e he => hentries.values e (List.mem_reverse.1 he)⟩
  exact .map hreverse.ofEntries.texts hreverse.ofEntries.values

/-- A completed value goes into the innermost container, or completes that with its end. -/
theorem continueWith_sound (hstack : ∀ f ∈ stack, f.Sound) (hv : v.IsJson)
    (h : continueWith stack v t = some m) : m.Sound := by
  unfold continueWith at h
  split at h
  next items rest =>
    obtain ⟨hitems, hrest⟩ := List.forall_mem_cons.1 hstack
    cases h
    exact ⟨List.forall_mem_cons.2 ⟨List.forall_mem_cons.2 ⟨hv, hitems⟩, hrest⟩, trivial⟩
  next items rest =>
    obtain ⟨hitems, hrest⟩ := List.forall_mem_cons.1 hstack
    have hall : ∀ w ∈ (v :: items).reverse, w.IsJson := fun w hw =>
      List.forall_mem_cons.2 ⟨hv, hitems⟩ w (List.mem_reverse.1 hw)
    cases h
    exact ⟨hrest, .list hall⟩
  next entries name rest =>
    obtain ⟨hentries, hrest⟩ := List.forall_mem_cons.1 hstack
    cases h
    exact ⟨hrest, all_cons hv hentries⟩
  next entries name rest =>
    obtain ⟨hentries, hrest⟩ := List.forall_mem_cons.1 hstack
    cases h
    exact ⟨hrest, map_isJson (all_cons hv hentries)⟩
  next => cases h

theorem step_sound (hm : m.Sound) (ht : t.Sound) (h : m.step t = some m') : m'.Sound := by
  obtain ⟨stack, phase⟩ := m
  obtain ⟨hstack, hphase⟩ := hm
  have hnone : Mapping.All Value.IsJson [] := ⟨List.forall_mem_nil _, List.forall_mem_nil _⟩
  cases phase with
  | value => exact beginValue_sound hstack ht h
  | firstItem =>
    simp only [step] at h
    split at h
    next items rest =>
      cases h
      exact ⟨(List.forall_mem_cons.1 hstack).2, .list (List.forall_mem_nil _)⟩
    next => exact beginValue_sound hstack ht h
  | firstKey =>
    simp only [step] at h
    split at h
    next =>
      cases h
      exact ⟨hstack, .map hnone.texts hnone.values⟩
    next => exact beginKey_sound hstack hnone h
  | key entries => exact beginKey_sound hstack hphase h
  | colon entries name =>
    simp only [step] at h
    split at h
    next =>
      cases h
      exact ⟨List.forall_mem_cons.2 ⟨hphase, hstack⟩, trivial⟩
    next => cases h
  | complete v => exact continueWith_sound hstack hphase h

theorem run_sound (hm : m.Sound) {ts : List Token} (hts : ∀ t ∈ ts, t.Sound) (h : m.run ts = some m') :
    m'.Sound := by
  induction ts generalizing m with
  | nil =>
    cases h
    exact hm
  | cons t ts ih =>
    obtain ⟨ht, hrest⟩ := List.forall_mem_cons.1 hts
    obtain ⟨next, hnext, h⟩ := Option.bind_eq_some_iff.1 h
    exact ih (step_sound hm ht hnext) hrest h

end Machine

/-- Whatever is read is a JSON value. -/
theorem read_isJson (h : read cs = some v) : v.IsJson := by
  obtain ⟨ts, hts, h⟩ := Option.bind_eq_some_iff.1 h
  obtain ⟨m, hm, h⟩ := Option.bind_eq_some_iff.1 h
  have hsound := Machine.run_sound Machine.start_sound (tokens_sound hts) hm
  unfold Machine.result? at h
  split at h
  next w _ hphase =>
    cases h
    have hcomplete := hsound.phase
    rw [hphase] at hcomplete
    exact hcomplete
  next => cases h

end Json
end Foreach

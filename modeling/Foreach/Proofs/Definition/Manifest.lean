import Foreach.Definition.Manifest
import Foreach.Proofs.Definition.Success

/-!
What becomes of a manifest.

A document lists entries, or it is refused. An entry is *proper* if it passes the checks that are made of it
before anything is defined, and a proper entry of a registered type is defined if its spec and its description
have the form that definitions need. Nothing looks at that form before a definition is made of the entry: one
that lacks it slips through the checks, and what it fails with is no fault for the user. Any other entry is
refused. Entries are defined in order up to the first that cannot be.
-/

namespace Foreach.Manifest

variable {registered : Key → Bool} {s t : Store} {clock clock' : Clock} {document : Value} {entry : Mapping}
  {entries : List Mapping} {p : Proposal} {f : Fault}

/-! ### Entries of a document -/

/-- What the entries of a document stand in. -/
def listing : Value → Value
  | .map es => (Mapping.getText? es "iterables").getD .null
  | v => v

/-- The entry that stands under a key: the mapping there, with the key for its name if it has none. -/
inductive Under (k : Key) : Value → Mapping → Prop
  | nothing : Under k .null [(.text "name", k.toValue)]
  | mapping (es : Mapping) : Under k (.map es) (Mapping.update [(.text "name", k.toValue)] es)

/-- The document lists these entries, under keys or one by one. -/
inductive Lists (document : Value) : List Mapping → Prop
  | keyed {es : Mapping} {entries : List Mapping} (hlisting : listing document = .map es)
    (hunder : List.Forall₂ (fun e entry => Under e.1 e.2 entry) es entries) : Lists document entries
  | plain {entries : List Mapping} (hlisting : listing document = .list (entries.map .map)) :
    Lists document entries

theorem namedEntry_eq_ok {k : Key} {v : Value} : namedEntry k v = .ok entry ↔ Under k v entry := by
  constructor
  · intro h
    unfold namedEntry at h
    split at h
    next =>
      cases h
      exact .nothing
    next es =>
      cases h
      exact .mapping es
    next => cases h
  · rintro (- | es) <;> rfl

theorem namedEntry_eq_error {k : Key} {v : Value} (h : namedEntry k v = .error f) : f.isReported = true := by
  unfold namedEntry at h
  split at h <;> cases h
  rfl

theorem listedEntry_eq_ok {v : Value} : listedEntry v = .ok entry ↔ v = .map entry := by
  cases v <;> simp [listedEntry]

theorem listedEntry_eq_error {v : Value} (h : listedEntry v = .error f) : f.isReported = true := by
  unfold listedEntry at h
  split at h <;> cases h
  rfl

theorem entries_eq (document : Value) : Manifest.entries document =
    match listing document with
    | .map es => es.mapM fun (k, v) => namedEntry k v
    | .list vs => vs.mapM listedEntry
    | _ => .error shape := rfl

theorem entries_eq_ok_iff : Manifest.entries document = .ok entries ↔ Lists document entries := by
  rw [entries_eq]
  constructor
  · intro h
    split at h
    next es hlisting =>
      exact .keyed hlisting ((mapM_eq_ok h).imp fun _ _ => namedEntry_eq_ok.1)
    next vs hlisting =>
      have hall : List.Forall₂ (fun v entry => v = .map entry) vs entries :=
        (mapM_eq_ok h).imp fun _ _ => listedEntry_eq_ok.1
      have hvs : vs = entries.map .map := by
        clear h hlisting
        induction hall with
        | nil => rfl
        | cons hfirst _ ih => rw [hfirst, ih, List.map_cons]
      exact .plain (hvs ▸ hlisting)
    next => cases h
  · intro h
    cases h with
    | keyed hlisting hunder =>
      rw [hlisting]
      exact mapM_of_forall₂ (hunder.imp fun _ _ => namedEntry_eq_ok.2)
    | plain hlisting =>
      rw [hlisting]
      refine mapM_of_forall₂ ?_
      rw [List.forall₂_map_left_iff]
      exact List.forall₂_same.2 fun entry _ => rfl

theorem entries_eq_error (h : Manifest.entries document = .error f) : f.isReported = true := by
  rw [entries_eq] at h
  split at h
  next =>
    obtain ⟨e, -, he⟩ := exists_of_mapM_error h
    exact namedEntry_eq_error he
  next =>
    obtain ⟨v, -, hv⟩ := exists_of_mapM_error h
    exact listedEntry_eq_error hv
  next =>
    cases h
    rfl

/-! ### One entry -/

/-- The entry passes the checks that are made before it is defined: its name and its type are texts, and its
spec is a mapping or as good as nothing. -/
structure Proper (entry : Mapping) (name type : String) (spec : Mapping) : Prop where
  name : part entry "name" = .text name
  type : part entry "type" = .text type
  spec : (part entry "spec").isTruthy = false ∧ spec = [] ∨ part entry "spec" = .map spec

/-- The form that a definition needs: the keys of its spec are texts, and so is its description, if there is
one. -/
structure WellFormed (spec : Mapping) (description : Value) : Prop where
  keys : ∀ e ∈ spec, e.1.toValue.IsText
  description : description = .null ∨ description.IsText

/-- The entry can be defined. -/
def Definable (registered : Key → Bool) (entry : Mapping) : Prop :=
  ∃ name type spec, Proper entry name type spec ∧ registered (.text type) = true ∧
    WellFormed spec (part entry "description")

/-- The entry passes all checks, and its type is registered, but it has not the form that a definition
needs. -/
def Slips (registered : Key → Bool) (entry : Mapping) : Prop :=
  ∃ name type spec, Proper entry name type spec ∧ registered (.text type) = true ∧
    ¬WellFormed spec (part entry "description")

theorem specOf_eq_ok_iff {name : String} {spec : Mapping} : specOf entry name = .ok spec ↔
    (part entry "spec").isTruthy = false ∧ spec = [] ∨ part entry "spec" = .map spec := by
  unfold specOf
  dsimp only
  by_cases hnothing : (part entry "spec").isTruthy = false
  · rw [if_pos (by simp [hnothing])]
    constructor
    · intro h
      cases h
      exact .inl ⟨hnothing, rfl⟩
    · rintro (⟨-, rfl⟩ | hspec)
      · rfl
      · rw [hspec] at hnothing
        cases spec with
        | nil => rfl
        | cons e es => cases hnothing
  · rw [if_neg (by simpa using hnothing)]
    cases hspec : part entry "spec" <;> rw [hspec] at hnothing <;> simp [hnothing]

theorem specOf_eq_error {name : String} (h : specOf entry name = .error f) : f.isReported = true := by
  unfold specOf at h
  dsimp only at h
  split at h
  next => cases h
  next => split at h <;> cases h; rfl

theorem proposal_eq_ok_iff : proposal entry = .ok p ↔ ∃ name type spec, Proper entry name type spec ∧
    p = ⟨.text name, .text type, .map spec, part entry "description"⟩ := by
  unfold proposal
  constructor
  · intro h
    split at h
    next name type hname htype =>
      obtain ⟨spec, hspec, rfl⟩ := map_eq_ok h
      exact ⟨name, type, spec, ⟨hname, htype, specOf_eq_ok_iff.1 hspec⟩, rfl⟩
    next => cases h
  · rintro ⟨name, type, spec, ⟨hname, htype, hspec⟩, rfl⟩
    rw [hname, htype]
    simp only [specOf_eq_ok_iff.2 hspec]
    rfl

theorem proposal_eq_error (h : proposal entry = .error f) : f.isReported = true := by
  unfold proposal at h
  split at h
  next name type _ _ =>
    cases hspec : specOf entry name with
    | error g =>
      rw [hspec] at h
      cases h
      exact specOf_eq_error hspec
    | ok spec =>
      rw [hspec] at h
      cases h
  next =>
    cases h
    rfl

theorem Proper.eq {name type name' type' : String} {spec spec' : Mapping} (h : Proper entry name type spec)
    (h' : Proper entry name' type' spec') : name = name' ∧ type = type' ∧ spec = spec' := by
  have hp := proposal_eq_ok_iff.2 ⟨name, type, spec, h, rfl⟩
  have hp' := proposal_eq_ok_iff.2 ⟨name', type', spec', h', rfl⟩
  rw [hp] at hp'
  simpa using hp'

/-- No entry that can be defined slips. -/
theorem Slips.not_definable (h : Slips registered entry) : ¬Definable registered entry := by
  rintro ⟨name, type, spec, hproper, -, hformed⟩
  obtain ⟨name', type', spec', hproper', -, hnot⟩ := h
  obtain ⟨-, -, rfl⟩ := hproper.eq hproper'
  exact hnot hformed

/-! ### Defining one entry -/

/-- The store after one entry is defined, and the clock. -/
def defineOne (registered : Key → Bool) (s : Store) (clock : Clock) (entry : Mapping) :
    Except Fault Store × Clock :=
  match proposal entry with
  | .error f => (.error f, clock)
  | .ok p =>
    match s.define registered clock p with
    | (.error f, _, clock) => (.error f, clock)
    | (.ok _, s, clock) => (.ok s, clock)

theorem defineAll_cons (registered : Key → Bool) (s : Store) (clock : Clock) (entry : Mapping)
    (entries : List Mapping) : defineAll registered s clock (entry :: entries) =
      match defineOne registered s clock entry with
      | (.error f, clock) => (.error f, clock)
      | (.ok s, clock) => defineAll registered s clock entries := by
  unfold defineOne
  rw [defineAll]
  cases proposal entry with
  | error f => rfl
  | ok p =>
    rcases hdefine : s.define registered clock p with ⟨f | d, next, middle⟩ <;> simp only [hdefine]

/-- The definition that a proper entry of a registered type makes, at a moment and over a store. -/
def Makes (registered : Key → Bool) (s : Store) (now : Timestamp) (entry : Mapping) (d : Definition) : Prop :=
  ∃ name type spec, Proper entry name type spec ∧ registered (.text type) = true ∧
    Store.Makes ⟨.text name, .text type, .map spec, part entry "description"⟩ (s.get? (.text name)) now d

theorem defineOne_eq_ok_iff : defineOne registered s clock entry = (.ok t, clock') ↔
    ∃ d, Makes registered s clock.now entry d ∧ t = s.enter d ∧ clock' = clock.tick := by
  constructor
  · intro h
    unfold defineOne at h
    split at h
    next => cases h
    next p hp =>
      obtain ⟨name, type, spec, hproper, rfl⟩ := proposal_eq_ok_iff.1 hp
      split at h
      next => cases h
      next d next middle hdefine =>
        cases h
        obtain ⟨haccept, -, hclock⟩ := Store.define_eq_ok hdefine
        obtain ⟨-, henter, hmakes⟩ := Store.enter_of_define rfl hdefine
        have hknown : registered (.text type) = true := by
          by_contra hunknown
          rw [Store.acceptType_text, if_neg hunknown] at haccept
          cases haccept
        exact ⟨d, ⟨name, type, spec, hproper, hknown, hmakes⟩, henter, hclock⟩
  · rintro ⟨d, ⟨name, type, spec, hproper, hknown, hmakes⟩, rfl, rfl⟩
    have hp := proposal_eq_ok_iff.2 ⟨name, type, spec, hproper, rfl⟩
    have hname : name = d.name := Except.ok.inj hmakes.name
    simp only [defineOne, hp, Store.define, Store.acceptType_text, if_pos hknown, Store.put,
      Store.keyOf_text, Store.definitionOf_of_makes hmakes]
    rw [hname]
    rfl

theorem definable_of_makes {now : Timestamp} {d : Definition} (h : Makes registered s now entry d) :
    Definable registered entry := by
  obtain ⟨name, type, spec, hproper, hknown, hmakes⟩ := h
  obtain ⟨m, hm, hspec⟩ := hmakes.spec
  cases hm
  exact ⟨name, type, spec, hproper, hknown, Definition.succeeds_checkSpec.1 ⟨_, hspec⟩,
    Check.succeeds_optionalText.1 ⟨_, hmakes.description⟩⟩

/-- Whether an entry is defined is up to the entry alone. -/
theorem exists_defineOne_of_definable (h : Definable registered entry) (s : Store) (clock : Clock) :
    ∃ t, defineOne registered s clock entry = (.ok t, clock.tick) := by
  obtain ⟨name, type, spec, hproper, hknown, hformed⟩ := h
  have hp := proposal_eq_ok_iff.2 ⟨name, type, spec, hproper, rfl⟩
  have hwelcomes : Store.Welcomes registered
      ⟨.text name, .text type, .map spec, part entry "description"⟩ :=
    { registered := ⟨.text type, rfl, hknown⟩
      type := .text type
      name := .text name
      spec := ⟨spec, rfl, hformed.keys⟩
      description := hformed.description }
  obtain ⟨d, hdefined⟩ := (Store.succeeds_define s registered clock _).2 hwelcomes
  rw [defineOne, hp]
  simp only
  rcases hdefine : s.define registered clock _ with ⟨answer, t, middle⟩
  rw [hdefine] at hdefined
  obtain rfl : answer = .ok d := hdefined
  obtain ⟨-, -, rfl⟩ := Store.define_eq_ok hdefine
  exact ⟨t, rfl⟩

theorem put_eq_invalid {name type : String} {spec : Mapping} {description : Value} {now : Timestamp}
    (h : (s.put now ⟨.text name, .text type, .map spec, description⟩).1 = .error f) :
    ∃ issues, f = .invalid issues := by
  have hmapping : Store.mappingOf (.map spec) = .ok spec := rfl
  simp only [Store.put, Store.keyOf_text, Store.definitionOf, hmapping] at h
  split at h
  next hdefinition =>
    split at hdefinition
    next issues _ =>
      cases hdefinition
      exact ⟨issues, (Except.error.inj h).symm⟩
    next => cases hdefinition
  next => cases h

/-- An entry that cannot be defined is refused, or it slips through the checks. -/
theorem defineOne_eq_error (h : defineOne registered s clock entry = (.error f, clock')) :
    f.isReported = true ∧ ¬Slips registered entry ∨ (∃ issues, f = .invalid issues) ∧ Slips registered entry := by
  have hnot : ¬Definable registered entry := by
    intro hdefinable
    obtain ⟨t, ht⟩ := exists_defineOne_of_definable hdefinable s clock
    cases h.symm.trans ht
  unfold defineOne at h
  split at h
  next g hp =>
    cases h
    refine .inl ⟨proposal_eq_error hp, ?_⟩
    rintro ⟨name, type, spec, hproper, -⟩
    cases hp.symm.trans (proposal_eq_ok_iff.2 ⟨name, type, spec, hproper, rfl⟩)
  next p hp =>
    obtain ⟨name, type, spec, hproper, rfl⟩ := proposal_eq_ok_iff.1 hp
    unfold Store.define at h
    rw [Store.acceptType_text] at h
    by_cases hknown : registered (.text type) = true
    · simp only [if_pos hknown] at h
      split at h
      next g left middle hput =>
        cases h
        have hput := congrArg Prod.fst hput
        refine .inr ⟨put_eq_invalid hput, name, type, spec, hproper, hknown, fun hformed => ?_⟩
        exact hnot ⟨name, type, spec, hproper, hknown, hformed⟩
      next => cases h
    · simp only [if_neg hknown] at h
      cases h
      refine .inl ⟨rfl, ?_⟩
      rintro ⟨name', type', spec', hproper', hknown', -⟩
      obtain ⟨-, rfl, -⟩ := hproper.eq hproper'
      exact hknown hknown'

theorem defineOne_of_slips (h : Slips registered entry) (s : Store) (clock : Clock) :
    ∃ issues middle, defineOne registered s clock entry = (.error (.invalid issues), middle) := by
  rcases hone : defineOne registered s clock entry with ⟨f | t, middle⟩
  · rcases defineOne_eq_error hone with ⟨-, hnot⟩ | ⟨⟨issues, rfl⟩, -⟩
    · exact absurd h hnot
    · exact ⟨issues, middle, rfl⟩
  · obtain ⟨d, hmakes, -⟩ := defineOne_eq_ok_iff.1 hone
    exact absurd (definable_of_makes hmakes) h.not_definable

/-! ### All entries -/

/-- The entries are defined one after another, at one reading of the clock each: from one store and clock to
another. -/
inductive InOrder (registered : Key → Bool) : Store → Clock → List Mapping → Store → Clock → Prop
  | nil (s : Store) (clock : Clock) : InOrder registered s clock [] s clock
  | cons {s t : Store} {clock clock' : Clock} {entry : Mapping} {entries : List Mapping} {d : Definition}
    (hmakes : Makes registered s clock.now entry d)
    (hrest : InOrder registered (s.enter d) clock.tick entries t clock') :
    InOrder registered s clock (entry :: entries) t clock'

theorem defineAll_eq_ok_iff :
    defineAll registered s clock entries = (.ok t, clock') ↔ InOrder registered s clock entries t clock' := by
  induction entries generalizing s clock with
  | nil =>
    constructor
    · intro h
      cases h
      exact .nil _ _
    · intro h
      cases h
      rfl
  | cons entry entries ih =>
    rw [defineAll_cons]
    constructor
    · intro h
      rcases hone : defineOne registered s clock entry with ⟨f | next, middle⟩
      · rw [hone] at h
        cases h
      · rw [hone] at h
        obtain ⟨d, hmakes, rfl, rfl⟩ := defineOne_eq_ok_iff.1 hone
        exact .cons hmakes (ih.1 h)
    · intro h
      cases h with
      | cons hmakes hrest =>
        rw [defineOne_eq_ok_iff.2 ⟨_, hmakes, rfl, rfl⟩]
        exact ih.2 hrest

/-- Entries that can all be defined are. -/
theorem exists_inOrder_iff (s : Store) (clock : Clock) :
    (∃ t clock', InOrder registered s clock entries t clock') ↔ ∀ entry ∈ entries, Definable registered entry := by
  constructor
  · rintro ⟨t, clock', h⟩
    induction h with
    | nil => exact List.forall_mem_nil _
    | cons hmakes _ ih => exact List.forall_mem_cons.2 ⟨definable_of_makes hmakes, ih⟩
  · intro h
    induction entries generalizing s clock with
    | nil => exact ⟨s, clock, .nil s clock⟩
    | cons entry entries ih =>
      obtain ⟨hfirst, hrest⟩ := List.forall_mem_cons.1 h
      obtain ⟨next, hone⟩ := exists_defineOne_of_definable hfirst s clock
      obtain ⟨d, hmakes, rfl, -⟩ := defineOne_eq_ok_iff.1 hone
      obtain ⟨t, clock', hinOrder⟩ := ih (s.enter d) clock.tick hrest
      exact ⟨t, clock', .cons hmakes hinOrder⟩

/-- The first entry that cannot be defined is the failure of all. -/
theorem exists_of_defineAll_error (h : defineAll registered s clock entries = (.error f, clock')) :
    ∃ before entry rest next middle, entries = before ++ entry :: rest ∧
      (∀ e ∈ before, Definable registered e) ∧ defineOne registered next middle entry = (.error f, clock') := by
  induction entries generalizing s clock with
  | nil => cases h
  | cons entry entries ih =>
    rw [defineAll_cons] at h
    rcases hone : defineOne registered s clock entry with ⟨g | next, middle⟩
    · rw [hone] at h
      cases h
      exact ⟨[], entry, entries, s, clock, rfl, List.forall_mem_nil _, hone⟩
    · rw [hone] at h
      obtain ⟨before, first, rest, next', middle', rfl, hbefore, hfirst⟩ := ih h
      obtain ⟨d, hmakes, -⟩ := defineOne_eq_ok_iff.1 hone
      have hall : ∀ e ∈ entry :: before, Definable registered e :=
        List.forall_mem_cons.2 ⟨definable_of_makes hmakes, hbefore⟩
      exact ⟨entry :: before, first, rest, next', middle', rfl, hall, hfirst⟩

theorem defineAll_of_slips {before rest : List Mapping} (hbefore : ∀ e ∈ before, Definable registered e)
    (hslips : Slips registered entry) (s : Store) (clock : Clock) :
    ∃ issues clock', defineAll registered s clock (before ++ entry :: rest) = (.error (.invalid issues), clock') := by
  induction before generalizing s clock with
  | nil =>
    obtain ⟨issues, middle, hone⟩ := defineOne_of_slips hslips s clock
    refine ⟨issues, middle, ?_⟩
    rw [List.nil_append, defineAll_cons, hone]
  | cons first before ih =>
    obtain ⟨hfirst, hbefore⟩ := List.forall_mem_cons.1 hbefore
    obtain ⟨next, hone⟩ := exists_defineOne_of_definable hfirst s clock
    rw [List.cons_append, defineAll_cons, hone]
    exact ih hbefore next clock.tick

/-! ### Documents -/

/-- The store after the entries of a document are defined, and the clock. -/
def define (registered : Key → Bool) (s : Store) (clock : Clock) (document : Value) :
    Except Fault Store × Clock :=
  match Manifest.entries document with
  | .error f => (.error f, clock)
  | .ok entries => defineAll registered s clock entries

theorem define_eq_ok_iff : define registered s clock document = (.ok t, clock') ↔
    ∃ entries, Lists document entries ∧ InOrder registered s clock entries t clock' := by
  unfold define
  cases hentries : Manifest.entries document with
  | error f =>
    refine ⟨nofun, ?_⟩
    rintro ⟨entries, hlists, -⟩
    cases hentries.symm.trans (entries_eq_ok_iff.2 hlists)
  | ok entries =>
    constructor
    · intro h
      exact ⟨entries, entries_eq_ok_iff.1 hentries, defineAll_eq_ok_iff.1 h⟩
    · rintro ⟨entries', hlists, hinOrder⟩
      cases hentries.symm.trans (entries_eq_ok_iff.2 hlists)
      exact defineAll_eq_ok_iff.2 hinOrder

/-- A document that cannot be defined is refused, or one of its entries slips through the checks. -/
theorem define_eq_error (h : define registered s clock document = (.error f, clock')) :
    f.isReported = true ∨ (∃ issues, f = .invalid issues) ∧ ∃ before entry rest,
      Lists document (before ++ entry :: rest) ∧ (∀ e ∈ before, Definable registered e) ∧
        Slips registered entry := by
  unfold define at h
  split at h
  next g hentries =>
    cases h
    exact .inl (entries_eq_error hentries)
  next entries hentries =>
    obtain ⟨before, entry, rest, next, middle, rfl, hbefore, hone⟩ := exists_of_defineAll_error h
    rcases defineOne_eq_error hone with ⟨hreported, -⟩ | ⟨hinvalid, hslips⟩
    · exact .inl hreported
    · exact .inr ⟨hinvalid, before, entry, rest, entries_eq_ok_iff.1 hentries, hbefore, hslips⟩

theorem status?_of_define (h : define registered s clock document = (.error f, clock')) : f.status? = none := by
  rcases define_eq_error h with hreported | ⟨⟨issues, rfl⟩, -⟩
  · exact Fault.status?_of_isReported hreported
  · rfl

theorem define_eq_invalid_iff :
    (∃ issues clock', define registered s clock document = (.error (.invalid issues), clock')) ↔
      ∃ before entry rest, Lists document (before ++ entry :: rest) ∧
        (∀ e ∈ before, Definable registered e) ∧ Slips registered entry := by
  constructor
  · rintro ⟨issues, clock', h⟩
    rcases define_eq_error h with hreported | ⟨-, hslips⟩
    · cases hreported
    · exact hslips
  · rintro ⟨before, entry, rest, hlists, hbefore, hslips⟩
    rw [define, entries_eq_ok_iff.2 hlists]
    exact defineAll_of_slips hbefore hslips s clock

end Foreach.Manifest

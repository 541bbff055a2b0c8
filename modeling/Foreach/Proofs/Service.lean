import Foreach.Proofs.Definition.Acceptance
import Foreach.Proofs.Definition.History
import Foreach.Proofs.Provider.Registry
import Foreach.Service

/-!
The history of a service.

Definitions and providers change in any order, and each on its own. So there is one log of both: what it says
of the definitions is what the calls in it say, and a type has the provider that the last registration of it
brought, if none has taken it out since. The two are joined only when a sequence is asked for.
-/

namespace Foreach.Service

variable {σ : Type}

/-- An operation on a service. Definitions are asked for under texts. -/
inductive Act (σ : Type) where
  | register (type : String) (p : Provider σ) (replace : Bool)
  | unregister (type : String)
  | define (name : String) (type spec description : Value)
  | delete (name : Key)
  | deserialize (document : Value)

/-- What is noted of an operation that succeeded. -/
inductive Note (σ : Type) where
  | registered (type : String) (p : Provider σ)
  | unregistered (type : String)
  | called (e : History.Entry)

variable {s t : Service σ} {clock clock' : Clock} {act : Act σ} {log earlier : List (Note σ)} {note : Note σ}
  {name type : String} {spec : Mapping} {p q : Provider σ}

/-- Whether an operation fails, and the service and the clock after it. -/
def attempt (s : Service σ) (clock : Clock) : Act σ → Except Fault Unit × Service σ × Clock
  | .register type p replace =>
    let (result, registry) := s.registry.register type p replace
    (result.map fun _ => (), { s with registry }, clock)
  | .unregister type => (.ok (), { s with registry := (s.registry.unregister type).1 }, clock)
  | .define name type spec description =>
    let (result, s, clock) := s.define clock ⟨.text name, type, spec, description⟩
    (result.map fun _ => (), s, clock)
  | .delete name => (.ok (), { s with store := (s.store.delete name).1 }, clock)
  | .deserialize document =>
    let (result, store) := s.store.deserialize document
    (result.map fun _ => (), { s with store }, clock)

/-- The note of an operation that succeeds at a moment. -/
def noteOf (s : Service σ) (now : Timestamp) : Act σ → Note σ
  | .register type p _ => .registered type p
  | .unregister type => .unregistered type
  | .define name type spec description =>
    .called ⟨.define s.registry.hasKey name type spec description, now⟩
  | .delete name => .called ⟨.delete name, now⟩
  | .deserialize document => .called ⟨.deserialize document, now⟩

/-! ### What a log says -/

def Note.call? : Note σ → Option History.Entry
  | .called e => some e
  | _ => none

/-- The calls of the store. -/
def calls (log : List (Note σ)) : List History.Entry := log.filterMap Note.call?

/-- The note is about the provider of this type. -/
def Note.Concerns (type : String) : Note σ → Prop
  | .registered t _ | .unregistered t => t = type
  | .called _ => False

/-- The provider is the one that was last registered for the type, which has not been taken out since. -/
def Provides (log : List (Note σ)) (type : String) (p : Provider σ) : Prop :=
  ∃ later earlier, log = later ++ .registered type p :: earlier ∧ ∀ note ∈ later, ¬note.Concerns type

/-- A definition stands under the name, and this type and this spec are what was last said of it. -/
def Stands (log : List (Note σ)) (name type : String) (spec : Mapping) : Prop :=
  ∃ e d, History.Settles (calls log) name e ∧ e.Gives d ∧ d.name = name ∧ d.type = type ∧ d.spec = spec

theorem provides_cons : Provides (note :: log) type p ↔
    note = .registered type p ∨ ¬note.Concerns type ∧ Provides log type p := by
  constructor
  · rintro ⟨later, earlier, hlog, hquiet⟩
    cases later with
    | nil => exact .inl (List.cons.inj hlog).1
    | cons first later =>
      obtain ⟨rfl, rfl⟩ := List.cons.inj hlog
      obtain ⟨hnote, hlater⟩ := List.forall_mem_cons.1 hquiet
      exact .inr ⟨hnote, later, earlier, rfl, hlater⟩
  · rintro (rfl | ⟨hnote, later, earlier, rfl, hlater⟩)
    · exact ⟨[], log, rfl, List.forall_mem_nil _⟩
    · exact ⟨note :: later, earlier, rfl, List.forall_mem_cons.2 ⟨hnote, hlater⟩⟩

theorem Provides.unique (hp : Provides log type p) (hq : Provides log type q) : p = q := by
  induction log with
  | nil =>
    obtain ⟨later, earlier, hlog, -⟩ := hp
    cases later <;> cases hlog
  | cons note log ih =>
    rcases provides_cons.1 hp with rfl | ⟨hnote, hp⟩
    · rcases provides_cons.1 hq with heq | ⟨hnote, -⟩
      · cases heq
        rfl
      · exact absurd rfl hnote
    · rcases provides_cons.1 hq with rfl | ⟨-, hq⟩
      · exact absurd rfl hnote
      · exact ih hp hq

/-- The service is what the log says. -/
structure Tells (log : List (Note σ)) (s : Service σ) : Prop where
  store : History.Tells (calls log) s.store
  registry : ∀ type p, s.registry.get? type = some p ↔ Provides log type p

theorem tells_empty : Tells [] (⟨.empty, .empty⟩ : Service σ) where
  store := History.tells_empty
  registry type p := by
    refine iff_of_false nofun ?_
    rintro ⟨later, earlier, hlog, -⟩
    cases later <;> cases hlog

/-! ### One more operation -/

theorem define_eq_ok {d : Definition} {proposal : Proposal} (h : s.define clock proposal = (.ok d, t, clock')) :
    ∃ store, s.store.define s.registry.hasKey clock proposal = (.ok d, store, clock') ∧ t = { s with store } := by
  obtain ⟨hresult, hrest⟩ := Prod.mk.inj h
  obtain ⟨hservice, hclock⟩ := Prod.mk.inj hrest
  exact ⟨_, Prod.ext hresult (Prod.ext rfl hclock), hservice.symm⟩

/-- Only a text that is registered is accepted as a type. -/
theorem acceptType_eq_ok {v : Value} (h : Store.acceptType s.registry.hasKey v = .ok ()) :
    ∃ type, v = .text type ∧ s.registry.has type = true := by
  unfold Store.acceptType Store.keyOf at h
  cases v with
  | text type =>
    refine ⟨type, rfl, ?_⟩
    by_contra hnot
    simp [Value.toKey?, Registry.hasKey, hnot] at h
  | tuple vs =>
    cases hkeys : Value.toKeys? vs <;> simp [Value.toKey?, hkeys, Registry.hasKey] at h
  | _ => simp [Value.toKey?, Registry.hasKey] at h

/-- A call of the store changes nothing for the providers. -/
theorem Tells.called (h : Tells log s) {store : Store} {e : History.Entry}
    (hstore : History.Tells (e :: calls log) store) : Tells (.called e :: log) { s with store } := by
  refine ⟨hstore, fun type p => ?_⟩
  rw [provides_cons, h.registry]
  simp [Note.Concerns]

theorem Tells.register (h : Tells log s) {registry : Registry (Provider σ)} {replace : Bool} {notices : List Notice}
    (hregister : s.registry.register type p replace = (.ok notices, registry)) :
    Tells (.registered type p :: log) { s with registry } := by
  refine ⟨h.store, fun other q => ?_⟩
  rw [provides_cons, Registry.get?_register hregister, ← h.registry]
  by_cases hother : other = type
  · simp [hother, Note.Concerns]
  · simp [hother, Note.Concerns, Ne.symm hother]

theorem Tells.unregister (h : Tells log s) (type : String) :
    Tells (.unregistered type :: log) { s with registry := (s.registry.unregister type).1 } := by
  refine ⟨h.store, fun other q => ?_⟩
  rw [provides_cons, Registry.get?_unregister, ← h.registry]
  by_cases hother : other = type
  · simp [hother, Note.Concerns]
  · simp [hother, Note.Concerns, Ne.symm hother]

theorem Tells.attempt (h : Tells log s) (hact : s.attempt clock act = (.ok (), t, clock')) :
    Tells (s.noteOf clock.now act :: log) t := by
  obtain ⟨hresult, hrest⟩ := Prod.mk.inj hact
  cases act with
  | register type p replace =>
    obtain ⟨notices, hnotices, -⟩ := map_eq_ok hresult
    obtain ⟨rfl, -⟩ := Prod.mk.inj hrest
    exact h.register (Prod.ext hnotices rfl)
  | unregister type =>
    cases hrest
    exact h.unregister type
  | define name type spec description =>
    obtain ⟨d, hd, -⟩ := map_eq_ok hresult
    obtain ⟨store, hstore, rfl⟩ := define_eq_ok (Prod.ext hd hrest)
    exact h.called (h.store.define hstore)
  | delete name =>
    cases hrest
    exact h.called (h.store.delete name clock.now)
  | deserialize document =>
    obtain ⟨notices, hnotices, -⟩ := map_eq_ok hresult
    obtain ⟨rfl, -⟩ := Prod.mk.inj hrest
    exact h.called (.of_deserialize (Prod.ext hnotices rfl) clock.now _)

/-- An operation that fails leaves the service as it was. -/
theorem attempt_of_error {f : Fault} (hact : (s.attempt clock act).1 = .error f) : (s.attempt clock act).2.1 = s := by
  cases act with
  | register type p replace =>
    have hregister := Registry.register_of_error (map_eq_error hact)
    simp only [attempt, hregister]
  | define name type spec description =>
    have hstore : (s.store.define s.registry.hasKey clock ⟨.text name, type, spec, description⟩).2.1 = s.store :=
      Store.define_of_error (map_eq_error hact)
    simp only [attempt, define, hstore]
  | deserialize document =>
    have hstore := Store.deserialize_of_error (map_eq_error hact)
    simp only [attempt, hstore]
  | unregister | delete => cases hact

/-! ### What a log decides -/

theorem Tells.stands_iff (h : Tells log s) : Stands log name type spec ↔
    ∃ d, s.store.get? (.text name) = some d ∧ d.type = type ∧ d.spec = spec := by
  constructor
  · rintro ⟨e, d, hsettles, hgives, rfl, rfl, rfl⟩
    have hpresent : d.name ∈ s.store.names := by
      obtain ⟨earlier, later, hlog, hquiet⟩ := hsettles.since
      exact (h.store.present d.name).2 ⟨e, earlier, ⟨later, hlog, fun x hx => (hquiet x hx).1⟩, hsettles.brings⟩
    obtain ⟨found, hfound, hname⟩ := List.mem_map.1 hpresent
    -- One entry settles a name, so what stands and what is found were given by the same one.
    obtain ⟨e', hsettles', hgives'⟩ := h.store.settled found hfound
    rw [hname] at hsettles'
    cases hsettles.unique hsettles'
    obtain ⟨htype, hspec, -, -⟩ := hgives'.unique hgives hname
    exact ⟨found, h.store.named.get?_eq_some_iff.2 ⟨hfound, hname⟩, htype, hspec⟩
  · rintro ⟨d, hd, rfl, rfl⟩
    obtain ⟨hmem, rfl⟩ := h.store.named.get?_eq_some_iff.1 hd
    obtain ⟨e, hsettles, hgives⟩ := h.store.settled d hmem
    exact ⟨e, d, hsettles, hgives, rfl, rfl, rfl⟩

theorem Tells.get?_eq_none_iff (h : Tells log s) :
    s.store.get? (.text name) = none ↔ ¬History.Present (calls log) name := by
  rw [h.store.named.get?_eq_none_iff, h.store.present]

theorem Tells.present_iff (h : Tells log s) :
    History.Present (calls log) name ↔ ∃ type spec, Stands log name type spec := by
  rw [← not_iff_not, ← h.get?_eq_none_iff, Option.eq_none_iff_forall_ne_some]
  constructor
  · rintro hnone ⟨type, spec, hstands⟩
    obtain ⟨d, hd, -⟩ := h.stands_iff.1 hstands
    exact hnone d hd
  · intro hnone d hd
    exact hnone ⟨d.type, d.spec, h.stands_iff.2 ⟨d, hd, rfl, rfl⟩⟩

theorem Tells.get?_registry_eq_none_iff (h : Tells log s) :
    s.registry.get? type = none ↔ ∀ p, ¬Provides log type p := by
  rw [Option.eq_none_iff_forall_ne_some]
  exact forall_congr' fun p => not_congr (h.registry type p)

/-! ### Resolution -/

theorem resolve_undefined_iff :
    s.resolve (.text name) = .error (.undefined name) ↔ s.store.get? (.text name) = none := by
  unfold resolve Store.require
  cases s.store.get? (.text name) with
  | none => exact iff_of_true rfl rfl
  | some d =>
    simp only [Option.elim_some]
    cases s.registry.get? d.type <;> simp

theorem resolve_dangling_iff : s.resolve (.text name) = .error (.dangling name type) ↔
    (∃ d, s.store.get? (.text name) = some d ∧ d.type = type) ∧ s.registry.get? type = none := by
  unfold resolve Store.require
  cases hstore : s.store.get? (.text name) with
  | none => simp
  | some d =>
    have hdisplay : (Key.text name).display = name := rfl
    simp only [Option.elim_some, Option.some.injEq, exists_eq_left']
    cases hregistry : s.registry.get? d.type with
    | none =>
      simp only [Except.error.injEq, Fault.dangling.injEq, hdisplay, true_and]
      exact ⟨fun htype => ⟨htype, htype ▸ hregistry⟩, And.left⟩
    | some q =>
      refine iff_of_false nofun ?_
      rintro ⟨rfl, hnone⟩
      cases hregistry.symm.trans hnone

theorem generate_of_error {f : Fault} (h : s.resolve (.text name) = .error f) : s.generate (.text name) = .fail f := by
  rw [generate, h]

theorem generate_of_stands (h : Tells log s) (hstands : Stands log name type spec) (hp : Provides log type p) :
    s.generate (.text name) = p.generate spec := by
  obtain ⟨d, hd, rfl, rfl⟩ := h.stands_iff.1 hstands
  exact generate_of_provider hd ((h.registry d.type p).2 hp)

/-- A definition is only made for a type that has a provider. -/
theorem Tells.provides_of_define (h : Tells log s) {d : Definition} {proposal : Proposal}
    (hdefine : s.define clock proposal = (.ok d, t, clock')) :
    ∃ type p, proposal.type = .text type ∧ Provides log type p := by
  obtain ⟨store, hstore, -⟩ := define_eq_ok hdefine
  obtain ⟨haccept, -, -⟩ := Store.define_eq_ok hstore
  obtain ⟨type, htype, hregistered⟩ := acceptType_eq_ok haccept
  obtain ⟨p, hp⟩ := Option.isSome_iff_exists.1 hregistered
  exact ⟨type, p, htype, (h.registry type p).1 hp⟩

/-! ### Operations, one after another -/

/-- The operations of a service that succeeded so far, the latest first, what they have made of it, and the
clock. -/
structure Annals (σ : Type) where
  log : List (Note σ)
  service : Service σ
  clock : Clock

namespace Annals

/-- After one more operation. One that fails does not come into the log. -/
def add (a : Annals σ) (act : Act σ) : Annals σ :=
  match a.service.attempt a.clock act with
  | (.error _, service, clock) => ⟨a.log, service, clock⟩
  | (.ok (), service, clock) => ⟨a.service.noteOf a.clock.now act :: a.log, service, clock⟩

/-- After operations on a service that is empty at first. -/
def ofActs (clock : Clock) (acts : List (Act σ)) : Annals σ := acts.foldl add ⟨[], ⟨.empty, .empty⟩, clock⟩

theorem tells_add {a : Annals σ} (h : Tells a.log a.service) (act : Act σ) :
    Tells (a.add act).log (a.add act).service := by
  unfold add
  split
  next f service clock hact =>
    have hservice := attempt_of_error (congrArg Prod.fst hact)
    rw [hact] at hservice
    simp only [show service = a.service from hservice]
    exact h
  next hact => exact h.attempt hact

theorem tells_ofActs (clock : Clock) (acts : List (Act σ)) :
    Tells (ofActs clock acts).log (ofActs clock acts).service := by
  induction acts using List.reverseRecOn with
  | nil => exact tells_empty
  | append_singleton acts act ih =>
    rw [ofActs, List.foldl_concat]
    exact tells_add ih act

/-- Resolution follows the latest operations. Whatever operations are made on a service, in whatever order, and
whichever of them fail: a name is resolved just if it is present and the type that was last said of it has a
provider, and the failures to resolve it tell the two apart. Then the sequence is what the provider that was
last registered for the type opens for the spec that was last said of the name. A name that is not resolved
opens nothing and leaves everything as it was. A definition is only made for a type that has a provider, the
providers come and go without a change of any definition, and one that dangles can be used as soon as its type
is registered again. -/
theorem resolution_follows_latest (clock : Clock) (acts : List (Act σ)) :
    let a := ofActs clock acts
    (∀ name, History.Present (calls a.log) name ↔ ∃ type spec, Stands a.log name type spec) ∧
      (∀ name, a.service.resolve (.text name) = .error (.undefined name) ↔
        ¬History.Present (calls a.log) name) ∧
      (∀ name type, a.service.resolve (.text name) = .error (.dangling name type) ↔
        (∃ spec, Stands a.log name type spec) ∧ ∀ p, ¬Provides a.log type p) ∧
      (∀ name type spec p, Stands a.log name type spec → Provides a.log type p →
        a.service.generate (.text name) = p.generate spec) ∧
      (∀ name f, a.service.resolve (.text name) = .error f → a.service.generate (.text name) = .fail f) ∧
      (∀ proposal d t later, a.service.define a.clock proposal = (.ok d, t, later) →
        ∃ type p, proposal.type = .text type ∧ Provides a.log type p) ∧
      (∀ type p replace, (a.add (.register type p replace)).service.store = a.service.store ∧
        (a.add (.unregister type)).service.store = a.service.store) ∧
      ∀ name type spec, Stands a.log name type spec → (∀ q, ¬Provides a.log type q) →
        ∀ p replace, (a.add (.register type p replace)).service.generate (.text name) = p.generate spec := by
  intro a
  have htells : Tells a.log a.service := tells_ofActs clock acts
  refine ⟨fun name => htells.present_iff, fun name => ?_, fun name type => ?_,
    fun name type spec p => generate_of_stands htells, fun name f => generate_of_error,
    fun proposal d t later => htells.provides_of_define, fun type p replace => ⟨?_, rfl⟩,
    fun name type spec hstands hnone p replace => ?_⟩
  · rw [resolve_undefined_iff, htells.get?_eq_none_iff]
  · rw [resolve_dangling_iff, htells.get?_registry_eq_none_iff]
    refine and_congr_left' ?_
    constructor
    · rintro ⟨d, hd, rfl⟩
      exact ⟨d.spec, htells.stands_iff.2 ⟨d, hd, rfl, rfl⟩⟩
    · rintro ⟨spec, hstands⟩
      obtain ⟨d, hd, htype, -⟩ := htells.stands_iff.1 hstands
      exact ⟨d, hd, htype⟩
  · simp only [add, attempt]
    rcases a.service.registry.register type p replace with ⟨_ | _, _⟩ <;> rfl
  · have hregister := Registry.register_of_absent (htells.get?_registry_eq_none_iff.2 hnone) p replace
    have hadd : a.add (.register type p replace) = ⟨.registered type p :: a.log,
        { a.service with registry := ⟨Registry.put a.service.registry.entries type p⟩ }, a.clock⟩ := by
      simp only [add, attempt, hregister]
      rfl
    rw [hadd]
    exact generate_of_stands (htells.register hregister) hstands (provides_cons.2 (.inl rfl))

end Annals
end Foreach.Service

import Foreach.Proofs.Definition.Names

/-!
The history of a store.

A log has the calls that succeeded, the latest first. Three things in it decide what a store holds: which
names are present, since when each has been, and what was last said of it. A load takes out every name and
brings those of its records, all at one time; a definition brings its name, and says what is so from then
on even if the name was there.

What is shown of the log for one call at a time holds for the calls of any store.
-/

namespace Foreach.History

/-- A call that may change a store. Definitions are asked for under texts. -/
inductive Call where
  | define (registered : Key → Bool) (name : String) (type spec description : Value)
  | delete (name : Key)
  | deserialize (document : Value)
  | reset

namespace Call

/-- Whether a call fails, and the store and the clock after it. -/
def attempt (s : Store) (clock : Clock) : Call → Except Fault Unit × Store × Clock
  | define registered name type spec description =>
    let (result, s, clock) := s.define registered clock ⟨.text name, type, spec, description⟩
    (result.map fun _ => (), s, clock)
  | delete name => (.ok (), (s.delete name).1, clock)
  | deserialize document =>
    let (result, s) := s.deserialize document
    (result.map fun _ => (), s, clock)
  | reset => (.ok (), s, clock)

/-- The name is present after the call. -/
def Brings (name : String) : Call → Prop
  | define _ defined .. => defined = name
  | deserialize document => name ∈ (Store.definitionsOf document).map (·.name)
  | _ => False

/-- The name is taken out by the call, be it that the call brings it again. -/
def Clears (name : String) : Call → Prop
  | delete key => key = .text name
  | deserialize _ => True
  | _ => False

/-- Where a name stands among those that the call brings. -/
def place (name : String) : Call → Nat
  | deserialize document => ((Store.definitionsOf document).map (·.name)).idxOf name
  | _ => 0

end Call

/-- A call that succeeded, and what the clock showed. -/
structure Entry where
  call : Call
  now : Timestamp

namespace Entry

/-- The call says this of the definition of a name that it brings. -/
def Gives (e : Entry) (d : Definition) : Prop :=
  match e.call with
  | .define _ _ type spec description =>
    Check.text type = .ok d.type ∧
      (∃ m, Store.mappingOf spec = .ok m ∧ Definition.checkSpec (.map m) = .ok d.spec) ∧
        Check.optionalText description = .ok d.description ∧ d.updated = e.now
  | .deserialize document =>
    ∃ r, Store.lastNamed (Store.definitionsOf document) d.name = some r ∧
      d.type = r.type ∧ d.spec = r.spec ∧ d.description = r.description ∧ d.updated = r.updated
  | _ => False

/-- The call creates the definition. -/
def Creates (e : Entry) (d : Definition) : Prop :=
  match e.call with
  | .define .. => d.created = e.now
  | .deserialize document =>
    ∃ r, Store.lastNamed (Store.definitionsOf document) d.name = some r ∧ d.created = r.created
  | _ => False

/-- Arguments of the kinds that a definition has are taken as they are. -/
theorem Gives.exact {e : Entry} {d : Definition} {registered : Key → Bool} {name type : String} {spec : Mapping}
    {description : Option String} (h : e.Gives d)
    (hcall : e.call = .define registered name (.text type) (.map spec) (description.elim .null .text))
    (htexts : Mapping.Texts spec) (hdistinct : Mapping.Distinct spec) :
    d.type = type ∧ d.spec = spec ∧ d.description = description ∧ d.updated = e.now := by
  unfold Gives at h
  rw [hcall] at h
  obtain ⟨htype, ⟨m, hm, hspec⟩, hdescription, hupdated⟩ := h
  cases hm
  rw [Definition.checkSpec_map htexts hdistinct] at hspec
  rw [Check.optionalText_elim] at hdescription
  exact ⟨(Except.ok.inj htype).symm, (Except.ok.inj hspec).symm, (Except.ok.inj hdescription).symm, hupdated⟩

/-- A call says one thing of a name. -/
theorem Gives.unique {e : Entry} {d d' : Definition} (h : e.Gives d) (h' : e.Gives d') (hname : d.name = d'.name) :
    d.type = d'.type ∧ d.spec = d'.spec ∧ d.description = d'.description ∧ d.updated = d'.updated := by
  unfold Gives at h h'
  cases hcall : e.call with
  | define registered name type spec description =>
    rw [hcall] at h h'
    obtain ⟨htype, ⟨m, hm, hspec⟩, hdescription, hupdated⟩ := h
    obtain ⟨htype', ⟨m', hm', hspec'⟩, hdescription', hupdated'⟩ := h'
    cases hm.symm.trans hm'
    exact ⟨Except.ok.inj (htype.symm.trans htype'), Except.ok.inj (hspec.symm.trans hspec'),
      Except.ok.inj (hdescription.symm.trans hdescription'), hupdated.trans hupdated'.symm⟩
  | deserialize document =>
    rw [hcall] at h h'
    obtain ⟨r, hr, htype, hspec, hdescription, hupdated⟩ := h
    obtain ⟨r', hr', htype', hspec', hdescription', hupdated'⟩ := h'
    rw [hname] at hr
    cases hr.symm.trans hr'
    exact ⟨htype.trans htype'.symm, hspec.trans hspec'.symm, hdescription.trans hdescription'.symm,
      hupdated.trans hupdated'.symm⟩
  | delete key =>
    rw [hcall] at h
    exact h.elim
  | reset =>
    rw [hcall] at h
    exact h.elim

theorem Creates.congr {e : Entry} {d d' : Definition} (h : e.Creates d) (hname : d'.name = d.name)
    (hcreated : d'.created = d.created) : e.Creates d' := by
  unfold Creates at *
  rw [hname, hcreated]
  exact h

end Entry

variable {log earlier : List Entry} {e x : Entry} {quiet : Entry → Prop} {name a b : String} {s t : Store}
  {d : Definition}

/-- The entry stands in the log before quiet ones and after the earlier ones. -/
def Since (quiet : Entry → Prop) (log : List Entry) (e : Entry) (earlier : List Entry) : Prop :=
  ∃ later, log = later ++ e :: earlier ∧ ∀ x ∈ later, quiet x

theorem since_cons :
    Since quiet (x :: log) e earlier ↔ (e = x ∧ earlier = log) ∨ quiet x ∧ Since quiet log e earlier := by
  constructor
  · rintro ⟨later, hlog, hquiet⟩
    cases later with
    | nil =>
      obtain ⟨rfl, rfl⟩ := List.cons.inj hlog
      exact .inl ⟨rfl, rfl⟩
    | cons y later =>
      obtain ⟨rfl, rfl⟩ := List.cons.inj hlog
      obtain ⟨hx, hlater⟩ := List.forall_mem_cons.1 hquiet
      exact .inr ⟨hx, later, rfl, hlater⟩
  · rintro (⟨rfl, rfl⟩ | ⟨hx, later, rfl, hlater⟩)
    · exact ⟨[], rfl, List.forall_mem_nil _⟩
    · exact ⟨x :: later, rfl, List.forall_mem_cons.2 ⟨hx, hlater⟩⟩

/-- Some call brings the name, and none since then takes it out. -/
def Present (log : List Entry) (name : String) : Prop :=
  ∃ e earlier, Since (fun x => ¬x.call.Clears name) log e earlier ∧ e.call.Brings name

/-- The name last became present with this entry. -/
structure Arrives (log : List Entry) (name : String) (e : Entry) (earlier : List Entry) : Prop where
  since : Since (fun x => ¬x.call.Clears name) log e earlier
  brings : e.call.Brings name
  absent : e.call.Clears name ∨ ¬Present earlier name

/-- The entry is the last that says anything of the name. -/
structure Settles (log : List Entry) (name : String) (e : Entry) : Prop where
  since : ∃ earlier, Since (fun x => ¬x.call.Clears name ∧ ¬x.call.Brings name) log e earlier
  brings : e.call.Brings name

/-- The first name has been present for longer than the second, or stands before it in the load with which
both last became present. -/
def Precedes (log : List Entry) (a b : String) : Prop :=
  ∃ e earlier e' earlier', Arrives log a e earlier ∧ Arrives log b e' earlier' ∧
    (earlier.length < earlier'.length ∨ e = e' ∧ earlier = earlier' ∧ e.call.place a < e.call.place b)

/-! ### One more entry -/

theorem present_cons : Present (x :: log) name ↔ x.call.Brings name ∨ ¬x.call.Clears name ∧ Present log name := by
  constructor
  · rintro ⟨e, earlier, hsince, hbrings⟩
    rcases since_cons.1 hsince with ⟨rfl, -⟩ | ⟨hx, hlog⟩
    · exact .inl hbrings
    · exact .inr ⟨hx, e, earlier, hlog, hbrings⟩
  · rintro (hbrings | ⟨hx, e, earlier, hlog, hbrings⟩)
    · exact ⟨x, log, since_cons.2 (.inl ⟨rfl, rfl⟩), hbrings⟩
    · exact ⟨e, earlier, since_cons.2 (.inr ⟨hx, hlog⟩), hbrings⟩

theorem Arrives.cons (h : Arrives log name e earlier) (hx : ¬x.call.Clears name) :
    Arrives (x :: log) name e earlier :=
  ⟨since_cons.2 (.inr ⟨hx, h.since⟩), h.brings, h.absent⟩

theorem arrives_head (hbrings : x.call.Brings name) (habsent : x.call.Clears name ∨ ¬Present log name) :
    Arrives (x :: log) name x log :=
  ⟨since_cons.2 (.inl ⟨rfl, rfl⟩), hbrings, habsent⟩

theorem Arrives.length_lt (h : Arrives log name e earlier) : earlier.length < log.length := by
  obtain ⟨later, hlog, -⟩ := h.since
  rw [hlog, List.length_append, List.length_cons]
  omega

theorem Settles.cons (h : Settles log name e) (hclears : ¬x.call.Clears name) (hbrings : ¬x.call.Brings name) :
    Settles (x :: log) name e := by
  obtain ⟨⟨earlier, hsince⟩, he⟩ := h
  exact ⟨⟨earlier, since_cons.2 (.inr ⟨⟨hclears, hbrings⟩, hsince⟩)⟩, he⟩

theorem settles_head (hbrings : x.call.Brings name) : Settles (x :: log) name x :=
  ⟨⟨log, since_cons.2 (.inl ⟨rfl, rfl⟩)⟩, hbrings⟩

theorem settles_cons {name : String} : Settles (x :: log) name e ↔
    (e = x ∧ x.call.Brings name) ∨ (¬x.call.Clears name ∧ ¬x.call.Brings name) ∧ Settles log name e := by
  constructor
  · rintro ⟨⟨earlier, hsince⟩, hbrings⟩
    rcases since_cons.1 hsince with ⟨rfl, -⟩ | ⟨hquiet, hlog⟩
    · exact .inl ⟨rfl, hbrings⟩
    · exact .inr ⟨hquiet, ⟨earlier, hlog⟩, hbrings⟩
  · rintro (⟨rfl, hbrings⟩ | ⟨hquiet, hsettles⟩)
    · exact settles_head hbrings
    · exact hsettles.cons hquiet.1 hquiet.2

theorem Settles.unique {e' : Entry} (h : Settles log name e) (h' : Settles log name e') : e = e' := by
  induction log with
  | nil =>
    obtain ⟨⟨earlier, later, hlog, -⟩, -⟩ := h
    cases later <;> cases hlog
  | cons x log ih =>
    rcases settles_cons.1 h with ⟨rfl, hbrings⟩ | ⟨hquiet, hsettles⟩
    · rcases settles_cons.1 h' with ⟨rfl, -⟩ | ⟨hquiet, -⟩
      · rfl
      · exact absurd hbrings hquiet.2
    · rcases settles_cons.1 h' with ⟨rfl, hbrings⟩ | ⟨-, hsettles'⟩
      · exact absurd hbrings hquiet.2
      · exact ih hsettles hsettles'

theorem Precedes.cons (h : Precedes log a b) (ha : ¬x.call.Clears a) (hb : ¬x.call.Clears b) :
    Precedes (x :: log) a b := by
  obtain ⟨e, earlier, e', earlier', hea, heb, hbefore⟩ := h
  exact ⟨e, earlier, e', earlier', hea.cons ha, heb.cons hb, hbefore⟩

/-! ### A store that its log tells of -/

/-- The store holds what the log says. -/
structure Tells (log : List Entry) (s : Store) : Prop where
  named : s.Named
  present : ∀ name, name ∈ s.names ↔ Present log name
  settled : ∀ d ∈ s.list, ∃ e, Settles log d.name e ∧ e.Gives d
  created : ∀ d ∈ s.list, ∃ e earlier, Arrives log d.name e earlier ∧ e.Creates d
  ordered : s.names.Pairwise (Precedes log)

theorem Tells.settled_cons (h : Tells log s) (hd : d ∈ s.list) (hclears : ¬x.call.Clears d.name)
    (hbrings : ¬x.call.Brings d.name) : ∃ e, Settles (x :: log) d.name e ∧ e.Gives d := by
  obtain ⟨e, hsettles, hgives⟩ := h.settled d hd
  exact ⟨e, hsettles.cons hclears hbrings, hgives⟩

theorem Tells.created_cons (h : Tells log s) (hd : d ∈ s.list) (hclears : ¬x.call.Clears d.name) :
    ∃ e earlier, Arrives (x :: log) d.name e earlier ∧ e.Creates d := by
  obtain ⟨e, earlier, harrives, hcreates⟩ := h.created d hd
  exact ⟨e, earlier, harrives.cons hclears, hcreates⟩

theorem tells_empty : Tells [] .empty where
  named := Store.named_empty
  present name := by
    refine ⟨fun h => absurd h List.not_mem_nil, ?_⟩
    rintro ⟨e, earlier, ⟨later, hlog, -⟩, -⟩
    cases later <;> cases hlog
  settled := List.forall_mem_nil _
  created := List.forall_mem_nil _
  ordered := .nil

theorem Tells.reset (h : Tells log s) (now : Timestamp) : Tells (⟨.reset, now⟩ :: log) s where
  named := h.named
  present name := by
    rw [present_cons, h.present]
    simp [Call.Brings, Call.Clears]
  settled d hd := h.settled_cons hd id id
  created d hd := h.created_cons hd id
  ordered := h.ordered.imp fun hab => hab.cons id id

theorem Tells.delete (h : Tells log s) (key : Key) (now : Timestamp) :
    Tells (⟨.delete key, now⟩ :: log) (s.delete key).1 where
  named := h.named.delete key
  present name := by
    rw [present_cons, ← h.present, h.named.mem_names_delete]
    simp [Call.Brings, Call.Clears, and_comm]
  settled d hd := by
    obtain ⟨hd, hne⟩ := h.named.mem_delete.1 hd
    exact h.settled_cons hd hne id
  created d hd := by
    obtain ⟨hd, hne⟩ := h.named.mem_delete.1 hd
    exact h.created_cons hd hne
  ordered := by
    refine (h.ordered.sublist (Store.names_delete s key)).imp_of_mem fun ha hb hab => ?_
    exact hab.cons (h.named.mem_names_delete.1 ha).2 (h.named.mem_names_delete.1 hb).2

theorem Tells.deserialize (document : Value) (now : Timestamp) (log : List Entry) :
    Tells (⟨.deserialize document, now⟩ :: log) (.ofDefinitions (Store.definitionsOf document)) where
  named := Store.named_ofDefinitions _
  present name := by
    rw [present_cons, Store.mem_names_ofDefinitions]
    exact ⟨.inl, fun h => h.resolve_right fun hrest => hrest.1 trivial⟩
  settled d hd := by
    have hname := (Store.mem_names_ofDefinitions _).1 (Store.mem_names hd)
    exact ⟨_, settles_head hname, d, Store.lastNamed_of_mem hd, rfl, rfl, rfl, rfl⟩
  created d hd := by
    have hname := (Store.mem_names_ofDefinitions _).1 (Store.mem_names hd)
    exact ⟨_, log, arrives_head hname (.inl trivial), d, Store.lastNamed_of_mem hd, rfl⟩
  ordered := by
    refine (Store.names_ofDefinitions _).imp_of_mem fun ha hb hlt => ?_
    exact ⟨_, log, _, log, arrives_head ((Store.mem_names_ofDefinitions _).1 ha) (.inl trivial),
      arrives_head ((Store.mem_names_ofDefinitions _).1 hb) (.inl trivial), .inr ⟨rfl, rfl, hlt⟩⟩

theorem Tells.of_deserialize {document : Value} {notices : List Notice}
    (h : s.deserialize document = (.ok notices, t)) (now : Timestamp) (log : List Entry) :
    Tells (⟨.deserialize document, now⟩ :: log) t := by
  rw [Store.deserialize_eq_ok h]
  exact .deserialize document now log

/-! ### Definitions -/

variable {registered : Key → Bool} {type spec description : Value} {clock clock' : Clock}

theorem Tells.exists_arrives (h : Tells log s) (ha : a ∈ s.names) : ∃ e earlier, Arrives log a e earlier := by
  obtain ⟨c, hc, rfl⟩ := List.mem_map.1 ha
  obtain ⟨e, earlier, harrives, -⟩ := h.created c hc
  exact ⟨e, earlier, harrives⟩

/-- A definition is created now, or with the one whose place it takes. -/
theorem Tells.creates_define (h : Tells log s)
    (hmakes : Store.Makes ⟨.text d.name, type, spec, description⟩ (s.get? (.text d.name)) clock.now d) :
    ∃ e earlier, Arrives (⟨.define registered d.name type spec description, clock.now⟩ :: log) d.name e earlier ∧
      e.Creates d := by
  have hcreated := hmakes.created
  cases hold : s.get? (.text d.name) with
  | none =>
    rw [hold] at hcreated
    have habsent : ¬Present log d.name := mt (h.present _).2 (h.named.get?_eq_none_iff.1 hold)
    exact ⟨_, log, arrives_head rfl (.inr habsent), hcreated⟩
  | some old =>
    -- The name has been present since what created the old definition, which the new one takes over.
    rw [hold] at hcreated
    obtain ⟨hmem, hname⟩ := h.named.get?_eq_some_iff.1 hold
    obtain ⟨e, earlier, harrives, hcreates⟩ := h.created old hmem
    rw [hname] at harrives
    exact ⟨e, earlier, harrives.cons id, hcreates.congr hname.symm hcreated⟩

/-- A name that is new comes last. -/
theorem Tells.ordered_enter (h : Tells log s) {x : Entry} (hclears : ∀ a, ¬x.call.Clears a)
    (hbrings : x.call.Brings d.name) : (s.enter d).names.Pairwise (Precedes (x :: log)) := by
  have hbefore : s.names.Pairwise (Precedes (x :: log)) :=
    h.ordered.imp fun hab => hab.cons (hclears _) (hclears _)
  rw [h.named.names_enter]
  split
  next => exact hbefore
  next hnew =>
    refine List.pairwise_append.2 ⟨hbefore, List.pairwise_singleton _ _, fun a ha b hb => ?_⟩
    obtain rfl := List.mem_singleton.1 hb
    obtain ⟨e, earlier, harrives⟩ := h.exists_arrives ha
    have habsent : ¬Present log d.name := mt (h.present _).2 hnew
    exact ⟨e, earlier, x, log, harrives.cons (hclears a), arrives_head hbrings (.inr habsent),
      .inl harrives.length_lt⟩

theorem Tells.define (h : Tells log s)
    (hdefine : s.define registered clock ⟨.text name, type, spec, description⟩ = (.ok d, t, clock')) :
    Tells (⟨.define registered name type spec description, clock.now⟩ :: log) t := by
  obtain ⟨rfl, rfl, hmakes⟩ := Store.enter_of_define rfl hdefine
  refine ⟨h.named.enter d, fun name => ?_, fun c hc => ?_, fun c hc => ?_, h.ordered_enter (fun _ => id) rfl⟩
  · rw [present_cons, ← h.present, h.named.mem_names_enter]
    exact or_congr eq_comm (and_iff_right id).symm
  · rcases h.named.of_mem_enter hc with rfl | ⟨hmem, hne⟩
    · exact ⟨_, settles_head rfl, hmakes.type, hmakes.spec, hmakes.description, hmakes.updated⟩
    · exact h.settled_cons hmem id hne.symm
  · rcases h.named.of_mem_enter hc with rfl | ⟨hmem, -⟩
    · exact h.creates_define hmakes
    · exact h.created_cons hmem id

/-! ### Calls, one after another -/

/-- What a call makes of a store is what the log says with the call in it. -/
theorem Tells.attempt (h : Tells log s) {call : Call} (hcall : call.attempt s clock = (.ok (), t, clock')) :
    Tells (⟨call, clock.now⟩ :: log) t := by
  cases call with
  | define registered name type spec description =>
    obtain ⟨hresult, hrest⟩ := Prod.mk.inj hcall
    obtain ⟨d, hd, -⟩ := map_eq_ok hresult
    exact h.define (Prod.ext hd hrest)
  | delete key =>
    cases hcall
    exact h.delete key clock.now
  | deserialize document =>
    obtain ⟨hresult, hrest⟩ := Prod.mk.inj hcall
    obtain ⟨notices, hnotices, -⟩ := map_eq_ok hresult
    exact .of_deserialize (Prod.ext hnotices (Prod.mk.inj hrest).1) clock.now log
  | reset =>
    cases hcall
    exact h.reset clock.now

/-- A call that fails leaves the store as it was. -/
theorem Call.attempt_of_error {call : Call} {f : Fault} (hcall : (call.attempt s clock).1 = .error f) :
    (call.attempt s clock).2.1 = s := by
  cases call with
  | define => exact Store.define_of_error (map_eq_error hcall)
  | deserialize => exact congrArg Prod.snd (Store.deserialize_of_error (map_eq_error hcall))
  | delete | reset => cases hcall

/-- The calls of a store that succeeded so far, the latest first, what they have made of it, and the clock. -/
structure Annals where
  log : List Entry
  store : Store
  clock : Clock

namespace Annals

/-- After one more call. One that fails does not come into the log. -/
def add (a : Annals) (call : Call) : Annals :=
  match call.attempt a.store a.clock with
  | (.error _, store, clock) => ⟨a.log, store, clock⟩
  | (.ok (), store, clock) => ⟨⟨call, a.clock.now⟩ :: a.log, store, clock⟩

theorem add_of_error {a : Annals} {call : Call} {f : Fault} (hcall : (call.attempt a.store a.clock).1 = .error f) :
    (a.add call).log = a.log ∧ (a.add call).store = a.store := by
  have hstore := Call.attempt_of_error hcall
  unfold add
  split
  next hattempt =>
    rw [hattempt] at hstore
    exact ⟨rfl, hstore⟩
  next hattempt =>
    rw [hattempt] at hcall
    cases hcall

/-- After calls of a store that is empty at first. -/
def ofCalls (clock : Clock) (calls : List Call) : Annals := calls.foldl add ⟨[], .empty, clock⟩

theorem tells_add {a : Annals} (h : Tells a.log a.store) (call : Call) :
    Tells (a.add call).log (a.add call).store := by
  rcases hcall : call.attempt a.store a.clock with ⟨f | _, store, clock⟩
  · obtain ⟨hlog, hstore⟩ := add_of_error (congrArg Prod.fst hcall)
    rw [hlog, hstore]
    exact h
  · rw [add, hcall]
    exact h.attempt hcall

theorem tells_ofCalls (clock : Clock) (calls : List Call) :
    Tells (ofCalls clock calls).log (ofCalls clock calls).store := by
  induction calls using List.reverseRecOn with
  | nil => exact tells_empty
  | append_singleton calls call ih =>
    rw [ofCalls, List.foldl_concat]
    exact tells_add ih call

/-- A store holds what its history says. Whatever calls are made, and whichever of them fail: each name
that some call brought and none has taken out since is the name of one definition, which has what was last
said of it, and was created when the name last became present; definitions stand in the order in which that
was; and every look-up tells of these definitions. A call that fails changes nothing of it. -/
theorem store_tells_history (clock : Clock) (calls : List Call) :
    let a := ofCalls clock calls
    Tells a.log a.store ∧ a.store.names.Nodup ∧
      (∀ d ∈ a.store.list, d.created.offset.natAbs < 1440 ∧ d.updated.offset.natAbs < 1440) ∧
      (∀ call f, (call.attempt a.store a.clock).1 = .error f →
        (a.add call).log = a.log ∧ (a.add call).store = a.store) ∧
      (∀ key, (a.store.delete key).2 = true ↔ ∃ name, key = .text name ∧ Present a.log name) ∧
      (∀ key, a.store.contains key = true ↔ ∃ name, key = .text name ∧ Present a.log name) ∧
      (∀ key, (a.store.get? key).isSome = a.store.contains key) ∧
      (∀ name d, a.store.get? (.text name) = some d ↔ d ∈ a.store.list ∧ d.name = name) ∧
      (∀ key d, a.store.require key = .ok d ↔ a.store.get? key = some d) ∧
      a.store.size = a.store.list.length := by
  intro a
  have htells : Tells a.log a.store := tells_ofCalls clock calls
  have hcontains : ∀ key, a.store.contains key = true ↔ ∃ name, key = .text name ∧ Present a.log name := by
    intro key
    simp only [htells.named.contains_key_iff, htells.present]
  refine ⟨htells, htells.named.names_nodup, fun d _ => ?_, fun call f => add_of_error, hcontains, hcontains,
    fun key => (a.store.contains_eq_isSome key).symm, fun name d => htells.named.get?_eq_some_iff,
    fun key d => Store.require_eq_ok_iff, a.store.size_eq⟩
  · obtain ⟨-, -, -, -, -, -, -, hcreated⟩ := d.created.valid
    obtain ⟨-, -, -, -, -, -, -, hupdated⟩ := d.updated.valid
    exact ⟨hcreated, hupdated⟩

/-- A name that is taken out and defined again comes last. -/
example :
    let define (name : String) : Call := .define (fun _ => true) name (.text "list") (.map []) .null
    (ofCalls ⟨fun _ => .epoch, 0⟩ [define "letters", define "numbers", .delete (.text "letters"), define "letters",
      define "numbers"]).store.names = ["numbers", "letters"] := by
  decide +kernel

end Annals
end Foreach.History

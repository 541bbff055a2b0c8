import Foreach.Proofs.Batch.Run

/-!
Sequences that give just certain items, and one such sequence for any items there are.

A run sees of a sequence only what its pulls give and the context that they leave. So a provider that
plays visits back stands for every provider that gives them.
-/

namespace Foreach

variable {σ : Type}

/-- Asked for a name in this context and state, the service opens a sequence that gives these items, and
then ends and closes without a failure. -/
def Service.Offers (service : Service σ) (name : String) (context : Context) (state : σ)
    (visits : List Visit) : Prop :=
  ∃ source s t u, service.generate (.text name) ⟨context, state⟩ = (.ok (some source), s) ∧
    source.Gives context s visits t ∧ source.pull t = (.ok none, u) ∧ source.closeFault? u = none

/-- The service with one provider and one definition, which is for that provider. -/
def Service.only (name : String) (provider : Provider σ) : Service σ where
  registry := ⟨[(provider.type, provider)]⟩
  store := ⟨[(.text name, ⟨name, provider.type, [], none, .epoch, .epoch⟩)]⟩

theorem Service.only_generate (name : String) (provider : Provider σ) :
    (Service.only name provider).generate (.text name) = provider.generate [] := by
  refine generate_of_provider (d := ⟨name, provider.type, [], none, .epoch, .epoch⟩) ?_ ?_
  · simp [only, Store.get?, Mapping.get?, Key.same]
  · simp [only, Registry.get?]

theorem Service.only_finite (name : String) {provider : Provider σ} (h : provider.Finite) :
    (Service.only name provider).Finite := by
  intro entry hentry
  rw [List.mem_singleton.1 hentry]
  exact h

namespace Visit

/-- The sequence that plays visits back; its state is what it still has to play. -/
def replay : Source (List Visit) where
  pull s :=
    match s.state with
    | [] => (.ok none, s)
    | v :: rest => (.ok (some v.item), ⟨v.seen, rest⟩)
  close? := none

/-- The provider that plays back the visits in its state, whatever the spec. -/
def replayer : Provider (List Visit) where
  serial := 0
  type := "replay"
  description := "Plays visits back"
  options := []
  generate _ s := (.ok (some replay), s)

theorem replay_gives (base : Context) (visits : List Visit) :
    ∀ c, ∃ t, replay.Gives base ⟨c, visits⟩ visits ⟨t, []⟩ := by
  induction visits with
  | nil => exact fun c => ⟨c, .nil _⟩
  | cons v rest ih =>
    intro c
    obtain ⟨t, hrest⟩ := ih base
    have hpull : replay.pull ⟨c, v :: rest⟩ = (.ok (some v.item), ⟨v.seen, rest⟩) := rfl
    exact ⟨t, .cons hpull hrest⟩

/-- Any visits are offered by some service. -/
theorem offers_replay (name : String) (context : Context) (visits : List Visit) :
    (Service.only name replayer).Offers name context visits visits := by
  obtain ⟨t, hgives⟩ := replay_gives context visits context
  refine ⟨replay, ⟨context, visits⟩, ⟨t, []⟩, ⟨t, []⟩, ?_, hgives, rfl, rfl⟩
  rw [Service.only_generate]
  rfl

theorem replayer_finite : replayer.Finite := by
  intro spec before source after hgenerate
  cases hgenerate
  refine ⟨List.length, fun s item t hpull => ?_⟩
  obtain ⟨context, _ | ⟨v, rest⟩⟩ := s
  · cases hpull
  · cases hpull
    exact Nat.lt_succ_self _

end Visit

namespace Batch

variable {ρ : Type} {job : Job ρ} {service : Service σ}

/-- A run over an offer that is not cancelled goes through all its items, provided that each has a text
and that the action is never stopped hard. -/
theorem exists_runCourse_of_offers (start : Start σ ρ) {visits : List Visit} {calls : List Call}
    (hoffers : service.Offers job.iterable start.context start.source visits)
    (hrenders : Rendered job.template visits calls)
    (hgoesOn : ∀ check ≤ calls.length, job.cancels check = .ok false)
    (hisolated : ∀ d ∈ job.deeds 0 calls (job.firstState start), d.IsIsolated) :
    ∃ source s, job.asked service start = (.ok (some source), s) ∧
      ∃ c : RunCourse job start source s, c.visits = visits ∧ c.calls = calls ∧
        c.finish = .exhausted ∧ source.closeFault? c.left = none := by
  obtain ⟨source, s, t, u, hasked, hgives, hend, hclose⟩ := hoffers
  let stretch : Stretch job source start.context 0 s (job.firstState start) :=
    { visits, calls, reached := t, gives := hgives, renders := hrenders, isolated := hisolated
      goesOn := fun k hk => hgoesOn (0 + k) (by omega) }
  have hlast : job.cancels (0 + calls.length) = .ok false := hgoesOn _ (by omega)
  exact ⟨source, s, hasked, ⟨stretch, .exhausted, u, .exhausted hlast hend⟩, rfl, rfl, rfl, hclose⟩

end Batch
end Foreach

import Foreach.Proofs.Batch.Accounts

/-!
The entries of a run make a well-formed chronicle.

Between the entries about its beginning and its end, each item has two, one after another: that it was
started, and how it came out. Only the last one may lack the second, in a run that failed. How many there
are, and which, is what the report says.
-/

namespace Foreach

variable {σ : Type} {source : Source σ} {base : Context} {s t : Surroundings σ}

/-- What pulls give is determined by how many there are. -/
theorem Source.Gives.unique {visits visits' : List Visit} {t' : Surroundings σ}
    (h : source.Gives base s visits t) (h' : source.Gives base s visits' t')
    (hlength : visits.length = visits'.length) : visits = visits' ∧ t = t' := by
  induction h generalizing visits' with
  | nil s =>
    cases h' with
    | nil => exact ⟨rfl, rfl⟩
    | cons => cases hlength
  | cons hpull _ ih =>
    cases h' with
    | nil => cases hlength
    | cons hpull' hrest' =>
      cases hpull.symm.trans hpull'
      obtain ⟨rfl, rfl⟩ := ih hrest' (Nat.succ.inj hlength)
      exact ⟨rfl, rfl⟩

/-- Any of the pulls comes after those before it. -/
theorem Source.Gives.exists_pull {visits : List Visit} (h : source.Gives base s visits t) {k : Nat}
    (hk : k < visits.length) : ∃ reached after, source.Gives base s (visits.take k) reached ∧
      source.pull reached = (.ok (some visits[k].item), after) := by
  induction h generalizing k with
  | nil => cases hk
  | cons hpull _ ih =>
    cases k with
    | zero => exact ⟨_, _, .nil _, hpull⟩
    | succ k =>
      obtain ⟨reached, after, hgives, hlast⟩ := ih (Nat.lt_of_succ_lt_succ hk)
      exact ⟨reached, after, .cons hpull hgives, hlast⟩

namespace Batch

variable {ρ : Type} {job : Job ρ} {service : Service σ} {start : Start σ ρ}

/-! ### The items of a run -/

/-- The item with this number, counted from one, is what the sequence gives after the items before it. -/
def Job.Meets (job : Job ρ) (service : Service σ) (start : Start σ ρ) (index : Nat) (item : Item) :
    Prop :=
  ∃ source s visits reached after, job.asked service start = (.ok (some source), s) ∧
    source.Gives start.context s visits reached ∧ visits.length + 1 = index ∧
    source.pull reached = (.ok (some item), after)

theorem Job.Meets.unique {index : Nat} {item item' : Item} (h : job.Meets service start index item)
    (h' : job.Meets service start index item') : item = item' := by
  obtain ⟨source, s, visits, reached, after, hasked, hgives, rfl, hpull⟩ := h
  obtain ⟨source', s', visits', reached', after', hasked', hgives', hlength, hpull'⟩ := h'
  cases hasked.symm.trans hasked'
  obtain ⟨rfl, rfl⟩ := hgives.unique hgives' (Nat.succ.inj hlength).symm
  cases hpull.symm.trans hpull'
  rfl

/-- The item with this number has no text. -/
def Job.LacksText (job : Job ρ) (service : Service σ) (start : Start σ ρ) (index : Nat) : Prop :=
  ∃ item f, job.Meets service start index item ∧ item.render job.template = .error f

/-! ### Entries -/

/-- The entries about items from number `index` on. Each item is started and then comes out, one way or the
other; if the run failed, the last one may be cut short. -/
inductive IsItemLog (failed : Prop) : Nat → List Entry → Prop
  | nil (index : Nat) : IsItemLog failed index []
  | cut {index : Nat} {text : String} (hfailed : failed) :
      IsItemLog failed index [.itemStarted index text]
  | finished {index : Nat} {text : String} {rest : List Entry}
      (hrest : IsItemLog failed (index + 1) rest) :
      IsItemLog failed index (.itemStarted index text :: .itemFinished index :: rest)
  | failed {index : Nat} {text error : String} {rest : List Entry}
      (hrest : IsItemLog failed (index + 1) rest) :
      IsItemLog failed index (.itemStarted index text :: .itemFailed index error :: rest)

/-- The number and the cause of an item that failed. -/
def Entry.failure? : Entry → Option (Int × String)
  | .itemFailed index error => some (index, error)
  | _ => none

def Entry.isItemFinish : Entry → Bool
  | .itemFinished _ => true
  | _ => false

def Entry.isItemStart : Entry → Bool
  | .itemStarted _ _ => true
  | _ => false

/-- The entries of a run that is told by its report. -/
structure Outcome.Chronicles (o : Outcome σ ρ) (job : Job ρ) (service : Service σ)
    (start : Start σ ρ) : Prop where
  entries : ∃ items, o.entries = job.opener :: items ++ [.finished o.report.summary] ∧
    IsItemLog (∃ f, o.result = .error f) 1 items
  failed : o.entries.filterMap Entry.failure? =
    o.report.failures.map fun (index, f) => (index, f.message)
  finished : o.entries.countP Entry.isItemFinish = o.report.results.length
  /-- Every item that was met was started, but for a last one without a text. -/
  started : ∃ met : Nat, o.report.processed = met ∧
    (job.LacksText service start met → o.entries.countP Entry.isItemStart + 1 = met) ∧
    (¬ job.LacksText service start met → o.entries.countP Entry.isItemStart = met)
  /-- The summary counts the entries, if the ledger had none before. -/
  total : ∀ (kept : ρ → Recorded) (l : Ledger), job.Records kept →
    (kept start.runner).ledger? = some l → l.total = 0 → ∃ document text,
      (kept o.runner).files.get? l.summaryPlace = some (.file (Utf8.encode (text ++ ['\n']))) ∧
      Json.print .indented 0 (.map document) = some text ∧
      Mapping.getText? document "total_logs" = some (.ofNat o.entries.length)

/-! ### Deeds -/

theorem IsItemLog.append_deeds {failed : Prop} {first : Nat} {ds : List Deed} {rest : List Entry}
    (h : IsItemLog failed (first + ds.length) rest) :
    IsItemLog failed first (entriesOf first ds ++ rest) := by
  induction ds generalizing first with
  | nil => exact h
  | cons d ds ih =>
    rw [List.length_cons, Nat.add_comm ds.length, ← Nat.add_assoc] at h
    rw [entriesOf_cons]
    obtain ⟨text, seen, f | result⟩ := d
    · exact .failed (ih h)
    · exact .finished (ih h)

theorem entriesOf_failures (first : Nat) (ds : List Deed) :
    (entriesOf first ds).filterMap Entry.failure? =
      (failures first ds).map fun (index, f) => (index, f.message) := by
  induction ds generalizing first with
  | nil => rfl
  | cons d ds ih =>
    rw [failures_cons, entriesOf_cons, List.filterMap_append, ih]
    obtain ⟨text, seen, f | result⟩ := d <;> rfl

theorem entriesOf_countP_isItemFinish (first : Nat) (ds : List Deed) :
    (entriesOf first ds).countP Entry.isItemFinish = (results ds).length := by
  induction ds generalizing first with
  | nil => rfl
  | cons d ds ih =>
    rw [results_cons, entriesOf_cons, List.countP_append, ih, List.length_append]
    obtain ⟨text, seen, f | result⟩ := d <;> rfl

theorem entriesOf_countP_isItemStart (first : Nat) (ds : List Deed) :
    (entriesOf first ds).countP Entry.isItemStart = ds.length := by
  induction ds generalizing first with
  | nil => rfl
  | cons d ds ih =>
    rw [entriesOf_cons, List.countP_append, ih, List.length_cons]
    obtain ⟨text, seen, f | result⟩ := d <;> exact Nat.add_comm 1 _

/-! ### Courses -/

namespace RunCourse

variable (c : RunCourse job start source s)

theorem isItemLog : IsItemLog (c.fault?.isSome = true) 1 c.itemEntries := by
  refine IsItemLog.append_deeds ?_
  have hlength : c.deeds.length = c.calls.length := Job.deeds_length _ _ _ _
  rw [hlength, Nat.add_comm]
  cases hfinish : c.finish with
  | stopped text seen f => exact .cut (by simp [fault?, hfinish, Finish.fault?])
  | _ => exact .nil _

theorem failure?_itemEntries : c.itemEntries.filterMap Entry.failure? =
    c.report.failures.map fun (index, f) => (index, f.message) := by
  have hlast : (c.finish.entries c.calls.length).filterMap Entry.failure? = [] := by
    cases c.finish <;> rfl
  rw [itemEntries, List.filterMap_append, entriesOf_failures, hlast, List.append_nil]
  rfl

theorem countP_isItemFinish_itemEntries :
    c.itemEntries.countP Entry.isItemFinish = c.report.results.length := by
  have hlast : (c.finish.entries c.calls.length).countP Entry.isItemFinish = 0 := by
    cases c.finish <;> rfl
  rw [itemEntries, List.countP_append, entriesOf_countP_isItemFinish, hlast]
  rfl

theorem countP_isItemStart_itemEntries :
    c.itemEntries.countP Entry.isItemStart =
      c.calls.length + (c.finish.entries c.calls.length).length := by
  have hlength : c.deeds.length = c.calls.length := Job.deeds_length _ _ _ _
  have hlast : (c.finish.entries c.calls.length).countP Entry.isItemStart =
      (c.finish.entries c.calls.length).length := by
    cases c.finish <;> rfl
  rw [itemEntries, List.countP_append, entriesOf_countP_isItemStart, hlast, hlength]

variable {c}

/-- Each item that was done has a text. -/
theorem meets_done (hasked : job.asked service start = (.ok (some source), s)) {k : Nat}
    (hk : k < c.visits.length) : job.Meets service start (k + 1) c.visits[k].item ∧
      ∃ text, c.visits[k].item.render job.template = .ok text := by
  obtain ⟨reached, after, hgives, hpull⟩ := c.gives.exists_pull hk
  have htexts := List.forall₂_iff_get.1 c.renders
  refine ⟨⟨source, s, _, reached, after, hasked, hgives, ?_, hpull⟩, _, (htexts.2 k hk ?_).1⟩
  · rw [List.length_take, Nat.min_eq_left (Nat.le_of_lt hk)]
  · rwa [← htexts.1]

/-- An item that the last turn met comes after those that were done. -/
theorem meets_last (hasked : job.asked service start = (.ok (some source), s)) {item : Item}
    {after : Surroundings σ} (hpull : source.pull c.reached = (.ok (some item), after)) :
    job.Meets service start (c.calls.length + 1) item :=
  ⟨source, s, c.visits, c.reached, after, hasked, c.gives, congrArg (· + 1) c.length_visits, hpull⟩

/-- The last item that was met lacks a text if the last turn found that, and not otherwise. -/
theorem lacksText_iff (hasked : job.asked service start = (.ok (some source), s)) :
    job.LacksText service start (c.calls.length + c.finish.met) ↔ ∃ f, c.finish = .unrendered f := by
  have hlast := c.finishes
  have hdone : ¬ job.LacksText service start c.calls.length := by
    rintro ⟨item, f, hmeets, hrender⟩
    obtain ⟨-, -, visits, -, -, -, -, hlength, -⟩ := id hmeets
    have hk : visits.length < c.visits.length := by
      rw [c.length_visits, ← hlength]
      exact Nat.lt_succ_self _
    obtain ⟨hmeets', text, hrender'⟩ := meets_done hasked hk
    rw [hlength] at hmeets'
    rw [hmeets.unique hmeets', hrender'] at hrender
    cases hrender
  cases hfinish : c.finish with
  | unrendered f =>
    rw [hfinish] at hlast
    refine ⟨fun _ => ⟨f, rfl⟩, fun _ => ?_⟩
    cases hlast with
    | unrendered _ hpull hrender => exact ⟨_, f, meets_last hasked hpull, hrender⟩
  | stopped text seen f =>
    rw [hfinish] at hlast
    generalize c.left = left at hlast
    constructor
    · rintro ⟨item, g, hmeets, hrender⟩
      cases hlast with
      | stopped _ hpull hrender' _ _ =>
        rw [hmeets.unique (meets_last hasked hpull), hrender'] at hrender
        cases hrender
    · rintro ⟨g, ⟨⟩⟩
  | _ =>
    constructor
    · exact fun h => absurd h hdone
    · rintro ⟨g, ⟨⟩⟩

/-- Every item that was met was started, but for a last one without a text. -/
theorem countP_isItemStart_eq_met (hasked : job.asked service start = (.ok (some source), s)) :
    (job.LacksText service start (c.calls.length + c.finish.met) →
      c.itemEntries.countP Entry.isItemStart + 1 = c.calls.length + c.finish.met) ∧
    (¬ job.LacksText service start (c.calls.length + c.finish.met) →
      c.itemEntries.countP Entry.isItemStart = c.calls.length + c.finish.met) := by
  rw [lacksText_iff hasked, countP_isItemStart_itemEntries]
  cases c.finish with
  | unrendered f => exact ⟨fun _ => rfl, fun hlast => absurd ⟨f, rfl⟩ hlast⟩
  | _ =>
    refine ⟨?_, fun _ => rfl⟩
    rintro ⟨g, ⟨⟩⟩

end RunCourse

/-! ### Runs -/

/-- The summary that a run leaves in a ledger counts the entries, if the ledger had none before. -/
theorem Job.Undisturbed.summary_total (h : job.Undisturbed service start) {kept : ρ → Recorded} {l : Ledger}
    (hrecords : job.Records kept) (hl : (kept start.runner).ledger? = some l) (hfresh : l.total = 0) :
    ∃ document text,
      (kept (execute job service start h.ends).runner).files.get? l.summaryPlace =
        some (.file (Utf8.encode (text ++ ['\n']))) ∧
      Json.print .indented 0 (.map document) = some text ∧
      Mapping.getText? document "total_logs" =
        some (.ofNat (execute job service start h.ends).entries.length) := by
  obtain ⟨text, hprinted, hfile⟩ := (h.isWritten hrecords hl).document
  refine ⟨_, text, hfile, hprinted, ?_⟩
  rw [hfresh, Nat.zero_add]
  exact Summary.getText?_total _ _ _

/-- There is no item before the first. -/
theorem Job.not_lacksText_zero : ¬ job.LacksText service start 0 := by
  rintro ⟨item, f, ⟨source, s, visits, reached, after, -, -, hlength, -⟩, -⟩
  cases hlength

/-- The entries of a run that its observer does not disturb, whatever comes of the run. -/
theorem execute_chronicles {σ ρ : Type} {job : Job ρ} {service : Service σ} {start : Start σ ρ}
    (h : job.Undisturbed service start) :
    (execute job service start h.ends).Chronicles job service start := by
  rcases h.refused_or_course with ⟨f, hrefused, hresult, hreport, htrace⟩ |
    ⟨source, s, hasked, c, -, hresult, hreport, htrace⟩
  · have hentries : (execute job service start h.ends).entries =
        [job.opener, .finished job.refusedReport.summary] := by
      rw [Outcome.entries, htrace]
      rfl
    exact {
      entries := ⟨[], by rw [hentries, hreport]; rfl, .nil 1⟩
      failed := by rw [hentries, hreport]; rfl
      finished := by rw [hentries, hreport]; rfl
      started := ⟨0, by rw [hreport]; rfl, fun hlacks => absurd hlacks Job.not_lacksText_zero,
        fun _ => by rw [hentries]; rfl⟩
      total := fun kept l => h.summary_total }
  · have hentries : (execute job service start h.ends).entries =
        job.opener :: c.itemEntries ++ [.finished c.report.summary] := by
      rw [Outcome.entries, htrace, c.trace_entries]
      rfl
    have hfailed : c.fault?.isSome = true ↔ ∃ f, (execute job service start h.ends).result = .error f := by
      rw [hresult]
      cases c.fault? <;> simp
    have hstarted : (execute job service start h.ends).entries.countP Entry.isItemStart =
        c.itemEntries.countP Entry.isItemStart := by
      rw [hentries]
      simp [Job.opener, Entry.isItemStart]
    exact {
      entries := ⟨c.itemEntries, by rw [hentries, hreport], propext hfailed ▸ c.isItemLog⟩
      failed := by
        rw [hentries, hreport, ← c.failure?_itemEntries]
        simp [Job.opener, List.filterMap_cons, Entry.failure?]
      finished := by
        rw [hentries, hreport, ← c.countP_isItemFinish_itemEntries]
        simp [Job.opener, Entry.isItemFinish]
      started := by
        refine ⟨c.calls.length + c.finish.met, by rw [hreport]; rfl, ?_⟩
        rw [hstarted]
        exact RunCourse.countP_isItemStart_eq_met (c := c) hasked
      total := fun kept l => h.summary_total }

theorem execute_chronicles_recorded :
    let service := Service.only "numbers" Visit.replayer
    let job := recordedJob ⟨"numbers", "{n}"⟩
    ∃ h : job.Undisturbed service recordedStart,
      (execute job service recordedStart h.ends).Chronicles job service recordedStart :=
  ⟨recordedJob_undisturbed, execute_chronicles recordedJob_undisturbed⟩

end Batch
end Foreach

import Foreach.Proofs.Batch.View
import Foreach.Proofs.Batch.Watch
import Foreach.Proofs.Ledger

/-!
What is recorded of a run: the entries, and the ledger that they go into.

The entries of a course are told by its deeds and its last turn. A ledger counts the entries it is given,
and when a run has been settled it ends with the entry about the end, next to a summary that says the same.
-/

namespace Foreach.Batch

variable {σ ρ : Type}

/-- What the observer of a run was told, in order. -/
def Outcome.entries (o : Outcome σ ρ) : List Entry := o.trace.filterMap Event.entry?

/-- The entries about the item with this number. -/
def Deed.entries (d : Deed) (index : Nat) : List Entry :=
  [.itemStarted index d.text, Deed.closing index d.answer]

theorem Deed.events_entries (d : Deed) (index : Nat) (before : Context) :
    (d.events index before).filterMap Event.entry? = d.entries index := by
  obtain ⟨text, seen, _ | _⟩ := d <;> rfl

/-- The entries about the items of deeds, numbered from `first` on. -/
def entriesOf (first : Nat) (ds : List Deed) : List Entry :=
  (ds.zipIdx first).flatMap fun (d, index) => d.entries index

theorem entriesOf_cons (first : Nat) (d : Deed) (ds : List Deed) :
    entriesOf first (d :: ds) = d.entries first ++ entriesOf (first + 1) ds := by
  simp only [entriesOf, List.zipIdx_cons, List.flatMap_cons]

/-- The entries about the last turn, after `done` items. -/
def Finish.entries (done : Nat) : Finish → List Entry
  | .stopped text _ _ => [.itemStarted (done + 1 : Nat) text]
  | _ => []

theorem Finish.events_entries (finish : Finish) (done : Nat) (before : Context) :
    (finish.events done before).filterMap Event.entry? = finish.entries done := by
  cases finish <;> rfl

section

variable {job : Job ρ} {start : Start σ ρ} {source : Source σ} {s : Surroundings σ}

/-- The entries about the items of a course. -/
def RunCourse.itemEntries (c : RunCourse job start source s) : List Entry :=
  entriesOf 1 c.deeds ++ c.finish.entries c.calls.length

theorem RunCourse.trace_entries (c : RunCourse job start source s) :
    c.trace.filterMap Event.entry? =
      job.opener :: c.itemEntries ++ [.finished c.report.summary] := by
  have hfarewell : c.farewell.filterMap Event.entry? = [] := by
    unfold farewell
    split <;> split <;> rfl
  simp only [trace, loopTrace, Job.history, deeds, List.filterMap_append, List.filterMap_cons,
    Event.entry?, eventsOf_filterMap Deed.entries Deed.events_entries, Finish.events_entries,
    hfarewell, List.filterMap_nil, List.append_nil, Nat.zero_add, itemEntries, entriesOf,
    List.cons_append]

end

/-! ### Ledgers -/

/-- The ledger's files after a run: the events end with the entry about the end of the run, and the summary
is a document in which each field of that entry stands as it is. -/
structure Summary.IsWritten (s : Summary) (l : Ledger) (now : Number) (files : Files) : Prop where
  lastLine : ∃ line before,
    l.line? (Entry.finished s).name (Entry.finished s).data now = some line ∧
      files.get? l.eventsPlace = some (.file (before ++ Utf8.encode line))
  document : ∃ text, Json.print .indented 0 (.map (l.payload s.toMapping now)) = some text ∧
    files.get? l.summaryPlace = some (.file (Utf8.encode (text ++ ['\n'])))
  fields : ∀ key value, (key, value) ∈ s.toMapping →
    Mapping.get? (l.payload s.toMapping now) key = some value

/-- The run has the last word in a summary. -/
theorem Summary.get?_payload (s : Summary) (l : Ledger) (now : Number) {key : Key} {value : Value}
    (h : (key, value) ∈ s.toMapping) :
    Mapping.get? (l.payload s.toMapping now) key = some value := by
  simp only [toMapping, List.mem_cons, Prod.mk.injEq, List.not_mem_nil, or_false] at h
  rcases h with ⟨rfl, rfl⟩ | ⟨rfl, rfl⟩ | ⟨rfl, rfl⟩ | ⟨rfl, rfl⟩ | ⟨rfl, rfl⟩ | ⟨rfl, rfl⟩ |
    ⟨rfl, rfl⟩ <;>
    simp [Ledger.payload, toMapping, Mapping.update, Mapping.insert, Mapping.get?, Key.same]

/-- The number of entries is the ledger's to tell. -/
theorem Summary.getText?_total (s : Summary) (l : Ledger) (now : Number) :
    Mapping.getText? (l.payload s.toMapping now) "total_logs" = some (.ofNat l.total) :=
  Ledger.getText?_payload_total (by simp [toMapping, Mapping.keys])

/-- The state of the action keeps what a run on files works on: the observer writes there and nowhere else,
and the action may change the files, but not which ledger there is. -/
structure Job.Records (job : Job ρ) (kept : ρ → Recorded) : Prop where
  logs : ∀ e r, (job.observer.log e r).1 = (Recorded.log job.now e (kept r)).1 ∧
    kept (job.observer.log e r).2 = (Recorded.log job.now e (kept r)).2
  finalizes : ∀ s r, (job.observer.finalize s r).1 = (Recorded.finalize job.now s (kept r)).1 ∧
    kept (job.observer.finalize s r).2 = (Recorded.finalize job.now s (kept r)).2
  acts : ∀ text context r,
    (kept (job.runner.invoke text ⟨context, r⟩).2.state).ledger? = (kept r).ledger?

/-- An action on files with the observer for them records. -/
theorem Job.records_of_files (iterable template : String) (a : Runner Files)
    (cancel : Option CancelToken) (now : Number) :
    Job.Records ⟨iterable, template, Recorded.runner a, Recorded.observer now, cancel, now⟩
      fun r => r where
  logs _ _ := ⟨rfl, rfl⟩
  finalizes _ _ := ⟨rfl, rfl⟩
  acts _ _ _ := rfl

/-- An entry that a ledger was given, whatever came of it. -/
theorem Recorded.log_eq {now : Number} {e : Entry} {r : Recorded} {l : Ledger}
    (hl : r.ledger? = some l) : Recorded.log now e r =
      ((l.log r.files e.name e.data now).1,
        ⟨(l.log r.files e.name e.data now).2.2, some { l with total := l.total + 1 }⟩) := by
  rw [Recorded.log, hl]
  exact congrArg (fun after => (_, Recorded.mk _ (some after))) (l.log_total _ _ _ _)

/-- Files that a summary was written into. -/
theorem Recorded.finalize_eq_ok {now : Number} {s : Summary} {r : Recorded} {l : Ledger}
    (hl : r.ledger? = some l) (h : (Recorded.finalize now s r).1 = .ok ()) :
    l.finalize r.files s.toMapping now = .ok (Recorded.finalize now s r).2.files := by
  simp only [Recorded.finalize, hl] at h ⊢
  cases hfinalize : l.finalize r.files s.toMapping now with
  | error f =>
    rw [hfinalize] at h
    cases h
  | ok files => rfl

/-- A run that is settled without a failure has been logged and summed up. -/
theorem settle_eq_none {job : Job ρ} {s : Summary} {r : ρ} (h : (settle job s r).1 = none) :
    (job.observer.log (.finished s) r).1 = .ok () ∧
      (job.observer.finalize s (job.observer.log (.finished s) r).2).1 = .ok () ∧
      (settle job s r).2 = (job.observer.finalize s (job.observer.log (.finished s) r).2).2 := by
  unfold settle at h ⊢
  rcases hlog : job.observer.log (.finished s) r with ⟨f | _, r'⟩
  · rw [hlog] at h
    cases h
  · rw [hlog] at h
    dsimp only at h ⊢
    rcases hfinalize : job.observer.finalize s r' with ⟨f | _, r''⟩
    · rw [hfinalize] at h
      cases h
    · exact ⟨rfl, rfl, rfl⟩

namespace Job.Records

variable {job : Job ρ} {kept : ρ → Recorded} (hrecords : job.Records kept)

include hrecords

/-- The ledger counts the entries. -/
theorem keeps (l : Ledger) : job.Keeps fun trace r => (kept r).ledger? =
    some { l with total := l.total + (trace.filterMap Event.entry?).length } where
  told := by
    intro trace r e hentry hr
    simpa [hentry] using hr
  logged := by
    intro trace r e hr
    rw [Job.heard, (hrecords.logs e r).2, Recorded.log_eq hr]
    simp [Event.entry?, Nat.add_assoc]
  acted := by
    intro trace r text context hr
    rw [hrecords.acts, hr]

/-- A run that is settled without a failure has its end and its summary in the files. -/
theorem settle_isWritten {s : Summary} {r : ρ} {l : Ledger} (hl : (kept r).ledger? = some l)
    (hnone : (settle job s r).1 = none) :
    s.IsWritten { l with total := l.total + 1 } job.now (kept (settle job s r).2).files := by
  obtain ⟨hlog, hfinalize, hstate⟩ := settle_eq_none hnone
  obtain ⟨hlogged, hkept⟩ := hrecords.logs (.finished s) r
  obtain ⟨hsummed, hkept'⟩ := hrecords.finalizes s (job.observer.log (.finished s) r).2
  rw [hlog, Recorded.log_eq hl] at hlogged
  rw [Recorded.log_eq hl] at hkept
  rw [hfinalize] at hsummed
  have hl' : (kept (job.observer.log (.finished s) r).2).ledger? =
      some { l with total := l.total + 1 } := by rw [hkept]
  have hwritten := Recorded.finalize_eq_ok hl' hsummed.symm
  rw [← hkept', ← hstate] at hwritten
  obtain ⟨hdocument, hevents⟩ := Ledger.finalize_eq_ok hwritten
  obtain ⟨line, before, hline, hlast⟩ := Ledger.log_eq_ok hlogged.symm
  refine ⟨⟨line, before, hline, hevents ?_⟩, hdocument, fun _ _ => s.get?_payload _ _⟩
  rw [hkept]
  exact hlast

end Job.Records

section

variable {job : Job ρ} {service : Service σ} {start : Start σ ρ}

/-- What is in the files of a recorded run that its observer does not disturb. -/
theorem Job.Undisturbed.isWritten (h : job.Undisturbed service start) {kept : ρ → Recorded}
    (hrecords : job.Records kept) {l : Ledger} (hl : (kept start.runner).ledger? = some l) :
    (execute job service start h.ends).report.summary.IsWritten
      { l with total := l.total + (execute job service start h.ends).entries.length } job.now
      (kept (execute job service start h.ends).runner).files := by
  obtain ⟨-, -, p, -, hbegin, -⟩ := h.conducted
  have hsettle := h.settle_eq hbegin
  obtain ⟨-, rfl⟩ := Job.begin_eq_inl hbegin
  have hkeeps := hrecords.keeps l
  have hbegun := @hkeeps.logged [] _ job.opener hl
  have hconducted := conduct_holds hkeeps (h.ends _ hbegin) hbegun
  have hwritten := hrecords.settle_isWritten hconducted hsettle
  rw [execute_of_begun hbegin] at hwritten ⊢
  simpa [Outcome.entries, conclude, Event.entry?, Nat.add_assoc] using hwritten

end

end Foreach.Batch

import Foreach.Proofs.Batch.Returned
import Foreach.Proofs.Cli.Session

/-!
What the exit status of a batch command tells.

A command that the option parser accepts gets its desk, opens its ledger and runs its request. It exits with
zero if all of that goes well to the last action, and with two if the run returns with failures of single
actions. A fault that is meant for the user comes behind `Error:` as the last line on the error stream, and the
status is one then, as it is for every other fault but those that end the program with a status of their own:
these can be of any status, zero and two among them.
-/

namespace Foreach.Cli

variable {σ α : Type} [BEq α]

/-! ### Endings -/

/-- What a user is told of a fault that a run ends in: the usage, if the input is at fault. -/
def toldOf : Fault → String
  | .usage _ => Request.usage
  | f => f.message

theorem endingOfFault_of_isReported {f : Fault} (h : f.isReported = true) :
    endingOfFault f = .refused (toldOf f) := by
  cases f <;> first | rfl | cases h

theorem status_endingOfFault (f : Fault) : (endingOfFault f).status = f.status?.elim 1 UInt8.toNat := by
  unfold endingOfFault
  split
  · rfl
  · exact status_ofFault_eq _

theorem status_endingOf_ok_eq_zero {report : Batch.Report} :
    (endingOf (.ok report)).status = 0 ↔ report.failures = [] := by
  cases hfailures : report.failures <;> simp [endingOf, hfailures, Ending.status]

theorem status_endingOf_ok_eq_two {report : Batch.Report} :
    (endingOf (.ok report)).status = 2 ↔ report.failures ≠ [] := by
  cases hfailures : report.failures <;> simp [endingOf, hfailures, Ending.status]

/-- The command exits with one, and the last line on the error stream is this message behind `Error:`. -/
structure Reply.Refuses (r : Reply) (message : String) : Prop where
  status : r.ending.status = 1
  lastLine : r.errorLines.getLast? = some (Ending.errorLine message)

theorem Reply.refuses_of_ending {r : Reply} {message : String} (h : r.ending = .refused message) :
    r.Refuses message where
  status := by rw [h]; rfl
  lastLine := by simp [errorLines, h, Ending.line?]

/-! ### Batch commands -/

/-- What a batch command is given: the words of its request, the command for the action, the id of the run,
and whether it is to have a ledger. -/
structure Invocation where
  words : List String
  action : Option String
  runId : Option String
  ledger : Bool

namespace Invocation

def command (i : Invocation) : Command := .foreach i.words i.action i.runId i.ledger

/-- The words together. -/
def input (i : Invocation) : String := " ".intercalate i.words

/-- Whatever the group of batch commands accepts is one. -/
theorem exists_of_ofArguments {args : List String} {c : Command}
    (h : Command.ofArguments .foreach args = some c) : ∃ i : Invocation, c = i.command := by
  obtain ⟨a, -, ha⟩ := Option.bind_eq_some_iff.1 h
  unfold Command.ofForeach at ha
  split at ha
  next => cases ha
  next =>
    cases ha
    exact ⟨⟨_, _, _, _⟩, rfl⟩

variable (i : Invocation) (h : Host σ α) (s : Settings) (files : Files)

def job (r : Request) : Batch.Job Batch.Recorded := Cli.job h (actionOf h s i.action) r

/-- The providers and the definitions have been loaded, and the ledger has been opened, if there is to be
one: the run may begin here. -/
def Starts (d : Desk σ) (start : Batch.Start σ Batch.Recorded) : Prop :=
  ∃ notices locked ledger? opened, h.desk s files = (.ok d, notices, locked) ∧
    openLedger h s i.runId i.ledger locked = .ok (ledger?, opened) ∧
    start = ⟨.empty, h.idle, ⟨opened, ledger?⟩⟩

/-- The run comes to an end, if it begins, and no write of the ledger fails, whether it is opened or told of the
run. -/
structure LedgerHolds : Prop where
  opens : ∀ d notices locked, h.desk s files = (.ok d, notices, locked) →
    ∃ ledger? opened, openLedger h s i.runId i.ledger locked = .ok (ledger?, opened)
  logs : ∀ d start, i.Starts h s files d start → ∀ r, Request.parse i.input = .ok r →
    (i.job h s r).Undisturbed d.service start

/-- What the run that begins here returns or raises. -/
def result (d : Desk σ) (start : Batch.Start σ Batch.Recorded)
    (ends : Batch.Ends (i.job h s) d.service start i.input) : Except Fault Batch.Report :=
  (Batch.run (i.job h s) d.service start i.input ends).bind (·.result)

/-- The command has run its request to the end of the items: the providers and the definitions load, the
words make a request, its name resolves, the sequence there gives items, ends and closes without a failure,
and each item has a text. These are the deeds for the items. -/
def GoesThrough (deeds : List Batch.Deed) : Prop :=
  ∃ d start r found, i.Starts h s files d start ∧ Request.parse i.input = .ok r ∧
    d.service.resolve (.text r.iterable) = .ok found ∧ (i.job h s r).GoesThrough d.service start deeds

/-- The run of the command ends in a fault. -/
def Raises (f : Fault) : Prop :=
  ∃ d start ends, i.Starts h s files d start ∧ i.result h s d start ends = .error f

/-- The command is stopped by a fault: it has no desk to work with, or its run ends in the fault. -/
def Stops (f : Fault) : Prop :=
  (∃ notices after, h.desk s files = (.error f, notices, after)) ∨ i.Raises h s files f

/-- The command is stopped by a fault that ends the program with this status. -/
def Exits (status : Nat) : Prop :=
  ∃ f own, i.Stops h s files f ∧ f.status? = some own ∧ own.toNat = status

end Invocation

section

variable {i : Invocation} {h : Host σ α} {s : Settings} {w : World} {d : Desk σ}
  {start : Batch.Start σ Batch.Recorded}

theorem Invocation.Starts.eq (hstarts : i.Starts h s w.files d start) {d' : Desk σ}
    {start' : Batch.Start σ Batch.Recorded} (hstarts' : i.Starts h s w.files d' start') :
    d = d' ∧ start = start' := by
  obtain ⟨notices, locked, ledger?, opened, hdesk, hopen, rfl⟩ := hstarts
  obtain ⟨notices', locked', ledger?', opened', hdesk', hopen', rfl⟩ := hstarts'
  cases hdesk.symm.trans hdesk'
  cases hopen.symm.trans hopen'
  exact ⟨rfl, rfl⟩

theorem Invocation.Starts.openRun_eq (hstarts : i.Starts h s w.files d start) :
    ∃ notices, openRun h s w i.runId i.ledger = .ok ⟨d, notices, start⟩ := by
  obtain ⟨notices, locked, ledger?, opened, hdesk, hopen, rfl⟩ := hstarts
  exact ⟨notices, by simp only [openRun, hdesk, hopen]⟩

/-- A command that begins its run is stopped by what the run ends in, and one without a desk by the reason for
that. -/
theorem Invocation.Starts.stops_iff (hstarts : i.Starts h s w.files d start)
    (ends : Batch.Ends (i.job h s) d.service start i.input) {f : Fault} :
    i.Stops h s w.files f ↔ i.result h s d start ends = .error f := by
  constructor
  · rintro (⟨notices, after, hdesk⟩ | ⟨d', start', ends', hstarts', hresult⟩)
    · obtain ⟨notices', locked, -, -, hdesk', -⟩ := hstarts
      cases hdesk.symm.trans hdesk'
    · obtain ⟨rfl, rfl⟩ := hstarts.eq hstarts'
      exact hresult
  · exact fun hresult => .inr ⟨d, start, ends, hstarts, hresult⟩

theorem Invocation.stops_iff_of_no_desk {g : Fault} {notices : List Notice} {after : Files}
    (hdesk : h.desk s w.files = (.error g, notices, after)) {f : Fault} : i.Stops h s w.files f ↔ f = g := by
  constructor
  · rintro (⟨notices', after', hdesk'⟩ | ⟨d', start', ends, ⟨notices', locked, -, -, hdesk', -⟩, -⟩)
    · cases hdesk.symm.trans hdesk'
      rfl
    · cases hdesk.symm.trans hdesk'
  · rintro rfl
    exact .inl ⟨notices, after, hdesk⟩

omit [BEq α] in
theorem Invocation.result_of_no_request (ends : Batch.Ends (i.job h s) d.service start i.input) {f : Fault}
    (hparse : Request.parse i.input = .error f) : i.result h s d start ends = .error f := by
  rw [result, Batch.run_of_no_request ends hparse]
  rfl

omit [BEq α] in
theorem Invocation.result_of_request (ends : Batch.Ends (i.job h s) d.service start i.input) {r : Request}
    (hparse : Request.parse i.input = .ok r) :
    i.result h s d start ends = (Batch.execute (i.job h s r) d.service start (ends r hparse)).result := by
  rw [result, Batch.run_of_request ends hparse]
  rfl

theorem Invocation.LedgerHolds.ends (hledger : i.LedgerHolds h s w.files) (hstarts : i.Starts h s w.files d start) :
    Batch.Ends (i.job h s) d.service start i.input :=
  fun r hparse => (hledger.logs d start hstarts r hparse).ends

/-- A run returns with failures of actions, or with none, just if it goes through and no action is stopped
hard. -/
theorem Invocation.result_eq_ok_iff (hledger : i.LedgerHolds h s w.files)
    (hstarts : i.Starts h s w.files d start) (ends : Batch.Ends (i.job h s) d.service start i.input)
    {fs : List (Int × Fault)} :
    (∃ report, i.result h s d start ends = .ok report ∧ report.failures = fs) ↔
      ∃ deeds, i.GoesThrough h s w.files deeds ∧ (∀ d ∈ deeds, d.IsIsolated) ∧
        fs = Batch.failures 1 deeds := by
  constructor
  · rintro ⟨report, hresult, hfailures⟩
    cases hparse : Request.parse i.input with
    | error f =>
      rw [i.result_of_no_request ends hparse] at hresult
      cases hresult
    | ok r =>
      have hcalm := hledger.logs d start hstarts r hparse
      rw [i.result_of_request ends hparse] at hresult
      obtain ⟨deeds, hgoes, hisolated, hfs⟩ :=
        (hcalm.returned_iff fun _ => rfl).1 ⟨report, hresult, hfailures⟩
      obtain ⟨visits, calls, hoffers, -⟩ := id hgoes
      obtain ⟨found, hfound⟩ := Batch.resolves_of_offers hoffers
      exact ⟨deeds, ⟨d, start, r, found, hstarts, hparse, hfound, hgoes⟩, hisolated, hfs⟩
  · rintro ⟨deeds, ⟨d', start', r, found, hstarts', hparse, -, hgoes⟩, hisolated, hfs⟩
    obtain ⟨rfl, rfl⟩ := hstarts.eq hstarts'
    have hcalm := hledger.logs d start hstarts r hparse
    rw [i.result_of_request ends hparse]
    exact (hcalm.returned_iff fun _ => rfl).2 ⟨deeds, hgoes, hisolated, hfs⟩

/-- A command without a ledger has none that could fail. -/
theorem Invocation.ledgerHolds_of_none (hnone : (i.ledger && s.runLedger) = false)
    (hfinite : ∀ a, (h.provider a).Finite) : i.LedgerHolds h s w.files where
  opens d notices locked _ := ⟨none, locked, by rw [openLedger, if_neg (by simp [hnone])]⟩
  logs := by
    rintro d start ⟨notices, locked, ledger?, opened, hdesk, hopen, rfl⟩ r -
    rw [openLedger, if_neg (by simp [hnone])] at hopen
    cases hopen
    have hrecords : (i.job h s r).Records fun r => r := Batch.Job.records_of_files _ _ _ _ _
    exact Batch.Job.undisturbed_of_quietWhile hrecords.quietWhile rfl
      (Batch.Job.ends_of_finite (h.finite_of_desk hfinite hdesk) _ _)

theorem Invocation.starts_or_refused (hledger : i.LedgerHolds h s w.files) :
    (∃ d start, i.Starts h s w.files d start) ∨
      ∃ f notices after, h.desk s w.files = (.error f, notices, after) := by
  rcases hdesk : h.desk s w.files with ⟨f | d, notices, locked⟩
  · exact .inr ⟨f, notices, locked, rfl⟩
  · obtain ⟨ledger?, opened, hopen⟩ := hledger.opens d notices locked hdesk
    exact .inl ⟨d, _, notices, locked, ledger?, opened, hdesk, hopen, rfl⟩

/-! ### Command lines that are accepted -/

variable {args rest : List String} (hgroup : Group.ofArguments args = some (.foreach, rest))
  (hsettings : h.settings w.files = .ok s) (hcommand : Command.ofArguments .foreach rest = some i.command)
  (ends : Ends h args w)

include hgroup hsettings hcommand

theorem run_of_accepted : ∃ hends : RunEnds h s w i.words i.action i.runId i.ledger,
    (Cli.run h args w ends).1 = (Cli.foreach h s w i.words i.action i.runId i.ledger hends).1.printed := by
  have hunderstood : understand h args w.files = .ok (s, i.command) := by
    simp only [understand, hgroup, hsettings, hcommand, Option.elim_some]
  exact ⟨ends s i.command hunderstood, congrArg Prod.fst (run_of_understood hunderstood)⟩

theorem ending_of_no_desk {f : Fault} {notices : List Notice} {after : Files}
    (hdesk : h.desk s w.files = (.error f, notices, after)) : (Cli.run h args w ends).1.ending = .ofFault f := by
  obtain ⟨hends, hrun⟩ := run_of_accepted hgroup hsettings hcommand ends
  have hopen : openRun h s w i.runId i.ledger = .error (⟨.ofFault f, [], notices⟩, { w with files := after }) := by
    simp only [openRun, hdesk]
  rw [hrun, foreach_of_refused hends hopen]
  rfl

theorem ending_of_starts (hledger : i.LedgerHolds h s w.files) (hstarts : i.Starts h s w.files d start) :
    (Cli.run h args w ends).1.ending = endingOf (i.result h s d start (hledger.ends hstarts)) := by
  obtain ⟨hends, hrun⟩ := run_of_accepted hgroup hsettings hcommand ends
  obtain ⟨notices, hopen⟩ := hstarts.openRun_eq
  rw [hrun, foreach_of_open hends hopen]
  cases hparse : Request.parse i.input with
  | error f =>
    rw [i.result_of_no_request _ hparse, Batch.run_of_no_request (hends _ hopen) hparse]
    rfl
  | ok r =>
    -- Only lines on the output stream could keep the reply from being printed.
    have hcalm := hledger.logs d start hstarts r hparse
    rw [i.result_of_request _ hparse, Batch.run_of_request (hends _ hopen) hparse]
    exact ending_printed hcalm.whole_lines

/-- A fault that stops the command is what it exits with one for, if the fault has no status of its own. -/
theorem status_of_stops (hledger : i.LedgerHolds h s w.files) {f : Fault} (hstops : i.Stops h s w.files f) :
    (Cli.run h args w ends).1.ending.status = f.status?.elim 1 UInt8.toNat := by
  rcases i.starts_or_refused hledger with ⟨d, start, hstarts⟩ | ⟨g, notices, after, hdesk⟩
  · have hresult := (hstarts.stops_iff (hledger.ends hstarts)).1 hstops
    rw [ending_of_starts hgroup hsettings hcommand ends hledger hstarts, hresult]
    exact status_endingOfFault f
  · obtain rfl := (Invocation.stops_iff_of_no_desk hdesk).1 hstops
    rw [ending_of_no_desk hgroup hsettings hcommand ends hdesk]
    exact status_ofFault_eq f

/-- A status other than one tells with which failures the run has returned, or is that of a fault. -/
theorem status_iff (hledger : i.LedgerHolds h s w.files) {status : Nat} (hone : status ≠ 1)
    (holds : List (Int × Fault) → Prop)
    (htells : ∀ report, (endingOf (.ok report)).status = status ↔ holds report.failures) :
    (Cli.run h args w ends).1.ending.status = status ↔
      (∃ deeds, i.GoesThrough h s w.files deeds ∧ (∀ d ∈ deeds, d.IsIsolated) ∧
        holds (Batch.failures 1 deeds)) ∨ i.Exits h s w.files status := by
  constructor
  · intro hstatus
    have hexits : ∀ f, i.Stops h s w.files f → i.Exits h s w.files status := by
      intro f hstops
      rw [status_of_stops hgroup hsettings hcommand ends hledger hstops] at hstatus
      cases hown : f.status? with
      | none =>
        rw [hown] at hstatus
        exact absurd hstatus.symm hone
      | some own =>
        rw [hown] at hstatus
        exact ⟨f, own, hstops, hown, hstatus⟩
    rcases i.starts_or_refused hledger with ⟨d, start, hstarts⟩ | ⟨f, notices, after, hdesk⟩
    · cases hresult : i.result h s d start (hledger.ends hstarts) with
      | error f => exact .inr (hexits f ((hstarts.stops_iff _).2 hresult))
      | ok report =>
        rw [ending_of_starts hgroup hsettings hcommand ends hledger hstarts, hresult, htells] at hstatus
        obtain ⟨deeds, hgoes, hisolated, hfs⟩ :=
          (i.result_eq_ok_iff hledger hstarts (hledger.ends hstarts)).1 ⟨report, hresult, rfl⟩
        exact .inl ⟨deeds, hgoes, hisolated, hfs ▸ hstatus⟩
    · exact .inr (hexits f ((Invocation.stops_iff_of_no_desk hdesk).2 rfl))
  · rintro (⟨deeds, hgoes, hisolated, hholds⟩ | ⟨f, own, hstops, hown, hstatus⟩)
    · obtain ⟨d, start, -, -, hstarts, -⟩ := id hgoes
      obtain ⟨report, hresult, hfs⟩ :=
        (i.result_eq_ok_iff hledger hstarts (hledger.ends hstarts)).2 ⟨deeds, hgoes, hisolated, rfl⟩
      rw [ending_of_starts hgroup hsettings hcommand ends hledger hstarts, hresult, htells, hfs]
      exact hholds
    · rw [status_of_stops hgroup hsettings hcommand ends hledger hstops, hown]
      exact hstatus

end

/-- The exit status of a batch command tells the truth. For every accepted command line and valid settings,
as long as the run comes to an end and no write of the ledger fails: the status is zero just if the providers
and the definitions load, the request goes through to the end of the items, and the action gives a result for
each of them, or the command is stopped by a fault that ends the program with zero; it is two just if the run
goes through as well, but some of its actions fail, none of them by a hard stop, or a fault ends the program
with two. A fault that stops the command is one in the status, if it has no status of its own; and a reported
fault, be it of the run or of the desk, is told on the error stream as well. -/
theorem foreach_status_truthful (h : Host σ α) (s : Settings) (w : World) (i : Invocation)
    {args rest : List String} (hgroup : Group.ofArguments args = some (.foreach, rest))
    (hsettings : h.settings w.files = .ok s) (hcommand : Command.ofArguments .foreach rest = some i.command)
    (ends : Ends h args w) (hledger : i.LedgerHolds h s w.files) :
    ((Cli.run h args w ends).1.ending.status = 0 ↔
      (∃ deeds, i.GoesThrough h s w.files deeds ∧ ∀ d ∈ deeds, ∃ result, d.answer = .ok result) ∨
        i.Exits h s w.files 0) ∧
    ((Cli.run h args w ends).1.ending.status = 2 ↔
      (∃ deeds, i.GoesThrough h s w.files deeds ∧ (∀ d ∈ deeds, d.IsIsolated) ∧
        ∃ d ∈ deeds, ∃ f, d.answer = .error f) ∨ i.Exits h s w.files 2) ∧
    (∀ f, i.Stops h s w.files f →
      (Cli.run h args w ends).1.ending.status = f.status?.elim 1 UInt8.toNat) ∧
    (∀ f, i.Raises h s w.files f → f.isReported = true → (Cli.run h args w ends).1.Refuses (toldOf f)) ∧
    ∀ f notices after, h.desk s w.files = (.error f, notices, after) → f.isReported = true →
      (Cli.run h args w ends).1.Refuses f.message := by
  refine ⟨?_, ?_, fun f hstops => status_of_stops hgroup hsettings hcommand ends hledger hstops, ?_, ?_⟩
  · rw [status_iff hgroup hsettings hcommand ends hledger Nat.zero_ne_one (· = [])
      fun _ => status_endingOf_ok_eq_zero]
    simp only [Batch.failures_eq_nil_iff]
    refine or_congr_left ⟨?_, ?_⟩
    · rintro ⟨deeds, hgoes, -, hall⟩
      exact ⟨deeds, hgoes, hall⟩
    · rintro ⟨deeds, hgoes, hall⟩
      exact ⟨deeds, hgoes, Batch.isIsolated_of_ok hall, hall⟩
  · rw [status_iff hgroup hsettings hcommand ends hledger (by decide) (· ≠ []) fun _ => status_endingOf_ok_eq_two]
    simp only [Batch.failures_ne_nil_iff]
  · rintro f ⟨d, start, hends, hstarts, hresult⟩ hreported
    have hending := ending_of_starts hgroup hsettings hcommand ends hledger hstarts
    rw [hresult, endingOf, endingOfFault_of_isReported hreported] at hending
    exact Reply.refuses_of_ending hending
  · intro f notices after hdesk hreported
    have hending := ending_of_no_desk hgroup hsettings hcommand ends hdesk
    rw [Ending.ofFault, if_pos hreported] at hending
    exact Reply.refuses_of_ending hending

/-! ### A command over visits that are played back -/

/-- A host with one provider, which plays back a single visit. -/
def replayHost : Host (List Visit) (FiniteProvider (List Visit)) where
  directory := []
  environment := [("ITERBATCH_PROVIDERS", "builtin:Replay")]
  catalogue := ⟨[("builtin", .offers [("Replay", .kind
    ⟨"Replay", fun _ => .ok ⟨some (.text "replay"), some ⟨Visit.replayer, Visit.replayer_finite⟩⟩, []⟩)])]⟩
  provider := Subtype.val
  installed := []
  idle := [⟨.entry .null (.record [("item", .text "1")]), .empty⟩]
  system := CommandRunner.quiet
  now := .int 0
  freshRun := "run"

def replaySettings : Settings :=
  ⟨".iterbatch/iterables.json", "builtin:Replay", none, 1800, ".iterbatch/runs", true, .warning⟩

/-- Files with one definition, and a clock that stands still. -/
def replayWorld : World where
  files := Files.empty.set [".iterbatch", "iterables.json"] (.file (Files.ofText
    "\x7b\"iterables\": [\x7b\"name\": \"visits\", \"type\": \"replay\", \"created_at\": 0, \"updated_at\": 0\x7d]\x7d"))
  clock := ⟨fun _ => .epoch, 0⟩

/-- A command with a single word, no action and no ledger. -/
def replayInvocation (word : String) : Invocation := ⟨[word], none, none, false⟩

def replayStart : Batch.Start (List Visit) Batch.Recorded :=
  ⟨.empty, replayHost.idle, ⟨(replayHost.desk replaySettings replayWorld.files).2.2, none⟩⟩

theorem replay_starts (word : String) : ∃ d,
    (replayInvocation word).Starts replayHost replaySettings replayWorld.files d replayStart ∧
      d.service.Offers "visits" replayStart.context replayStart.source replayHost.idle := by
  have htype : ((replayHost.desk replaySettings replayWorld.files).1.toOption.bind fun d =>
      (d.store.get? (.text "visits")).map Definition.type) = some "replay" := by decide +kernel
  rcases desk_cases replayHost replaySettings replayWorld.files with
    ⟨f, notices, after, hdesk, -⟩ | ⟨store, more, notices, locked, hdesk, -⟩
  · rw [hdesk] at htype
    cases htype
  · rw [hdesk] at htype
    obtain ⟨found, hfound, hreplay⟩ := Option.map_eq_some_iff.1 htype
    have hprovider : (replayHost.providers replaySettings).get? found.type = some Visit.replayer := by
      rw [hreplay]
      rfl
    have hgenerate := Service.generate_of_provider (s := ⟨replayHost.providers replaySettings, store⟩) hfound hprovider
    obtain ⟨t, hgives⟩ := Visit.replay_gives .empty replayHost.idle .empty
    refine ⟨_, ⟨notices, locked, none, locked, hdesk, rfl, ?_⟩, Visit.replay, _, _, _, ?_, hgives, rfl, rfl⟩
    · rw [replayStart, hdesk]
    · exact congrFun hgenerate _

theorem replay_goesThrough : ∃ deeds,
    (replayInvocation "@visits {item}").GoesThrough replayHost replaySettings replayWorld.files deeds ∧
      ∀ d ∈ deeds, ∃ result, d.answer = .ok result := by
  obtain ⟨d, hstarts, hoffers⟩ := replay_starts "@visits {item}"
  obtain ⟨found, hfound⟩ := Batch.resolves_of_offers hoffers
  have hparse : Request.parse (replayInvocation "@visits {item}").input = .ok ⟨"visits", "{item}"⟩ := rfl
  have hrenders : Batch.Rendered "{item}" replayHost.idle [("1", .empty)] := .cons ⟨rfl, rfl⟩ .nil
  refine ⟨_, ⟨d, replayStart, _, found, hstarts, hparse, hfound, _, _, hoffers, hrenders, rfl⟩, ?_⟩
  exact List.forall_mem_singleton.2 ⟨_, rfl⟩

theorem replay_ends (args : List String) : Ends replayHost args replayWorld :=
  ends_of_finite Subtype.property args replayWorld

theorem replay_ledgerHolds (word : String) :
    (replayInvocation word).LedgerHolds replayHost replaySettings replayWorld.files :=
  Invocation.ledgerHolds_of_none rfl Subtype.property

/-- A request for the definition is run to its end, and words that make no request are answered with the
usage. -/
theorem foreach_status_truthful_replay :
    (Cli.run replayHost ["foreach", "--no-ledger", "@visits {item}"] replayWorld (replay_ends _)).1.ending.status = 0 ∧
      (Cli.run replayHost ["foreach", "--no-ledger", "visits"] replayWorld (replay_ends _)).1.Refuses
        Request.usage := by
  have hsettings : replayHost.settings replayWorld.files = .ok replaySettings :=
    eq_ok_of_toOption (by decide +kernel)
  have hgroup : ∀ word, Group.ofArguments ["foreach", "--no-ledger", word] =
      some (.foreach, ["--no-ledger", word]) := fun _ => rfl
  have hrequest : Command.ofArguments .foreach ["--no-ledger", "@visits {item}"] =
      some (replayInvocation "@visits {item}").command := by decide +kernel
  have hword : Command.ofArguments .foreach ["--no-ledger", "visits"] =
      some (replayInvocation "visits").command := by decide +kernel
  constructor
  · obtain ⟨hzero, -⟩ := foreach_status_truthful replayHost replaySettings replayWorld
      (replayInvocation "@visits {item}") (hgroup _) hsettings hrequest (replay_ends _) (replay_ledgerHolds _)
    exact hzero.2 (.inl replay_goesThrough)
  · obtain ⟨-, -, -, hraises, -⟩ := foreach_status_truthful replayHost replaySettings replayWorld
      (replayInvocation "visits") (hgroup _) hsettings hword (replay_ends _) (replay_ledgerHolds _)
    obtain ⟨d, hstarts, -⟩ := replay_starts "visits"
    have hends := (replay_ledgerHolds "visits").ends hstarts
    exact hraises _ ⟨d, replayStart, hends, hstarts, Invocation.result_of_no_request hends rfl⟩ rfl

/-! ### A provider that ends the program -/

/-- A host with a single entry point, which ends the program with zero when it is called for a provider. -/
def exitHost : Host Nat (FiniteProvider Nat) where
  directory := []
  environment := [("ITERBATCH_PROVIDERS", "sys:exit")]
  catalogue := ⟨[("sys", .offers [("exit", .procedure "builtin" fun _ => .error (.exit 0 false ""))])]⟩
  provider := Subtype.val
  installed := []
  idle := 0
  system := CommandRunner.quiet
  now := .int 0
  freshRun := "run"

def exitSettings : Settings := { replaySettings with providers := "sys:exit" }

def exitInvocation : Invocation := ⟨["@a b"], none, none, true⟩

/-- The status is zero, though nothing was run: the providers did not even load. -/
theorem exit_is_no_success :
    Group.ofArguments ["foreach", "@a b"] = some (.foreach, ["@a b"]) ∧
      exitHost.settings replayWorld.files = .ok exitSettings ∧
      Command.ofArguments .foreach ["@a b"] = some exitInvocation.command ∧
      exitInvocation.LedgerHolds exitHost exitSettings replayWorld.files ∧
      (Cli.run exitHost ["foreach", "@a b"] replayWorld (ends_of_finite Subtype.property _ _)).1.ending.status = 0 ∧
      ¬∃ deeds, exitInvocation.GoesThrough exitHost exitSettings replayWorld.files deeds := by
  have hunstarted : ∀ d start, ¬exitInvocation.Starts exitHost exitSettings replayWorld.files d start := by
    rintro d start ⟨notices, locked, -, -, hdesk, -⟩
    cases hdesk
  have hledger : exitInvocation.LedgerHolds exitHost exitSettings replayWorld.files :=
    { opens := fun _ _ _ hdesk => nomatch hdesk
      logs := fun d start hstarts => absurd hstarts (hunstarted d start) }
  refine ⟨rfl, eq_ok_of_toOption (by decide +kernel), by decide +kernel, hledger, by decide +kernel, ?_⟩
  rintro ⟨deeds, d, start, -, -, hstarts, -⟩
  exact hunstarted d start hstarts

end Foreach.Cli

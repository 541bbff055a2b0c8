import Foreach.Ledger
import Foreach.Proofs.Files
import Foreach.Proofs.Json.Domain
import Foreach.Proofs.Json.Line
import Foreach.Proofs.Text.Utf8
import Mathlib.Logic.Function.Basic

/-!
What ledgers have in their files.

An event that was logged is the last line of the one file, and a summary that was written is the whole of
the other. Neither changes the other's file.

Any number of ledgers can share a directory. Whatever calls they get, the one file grows by a line for each event
that can be written, and by nothing else; the other holds the last summary that could be written.
-/

namespace Foreach.Ledger

/-! ### One ledger -/

section

variable {l : Ledger} {fs after : Files} {event : String} {data : Value} {now : Number}

theorem eventsPlace_ne_summaryPlace (l : Ledger) : l.eventsPlace ≠ l.summaryPlace := by
  simp [eventsPlace, summaryPlace]

/-- Every event counts, one that could not be logged too. -/
theorem log_total (l : Ledger) (fs : Files) (event : String) (data : Value) (now : Number) :
    (l.log fs event data now).2.1 = { l with total := l.total + 1 } := by
  unfold log
  dsimp only
  split
  next => rfl
  next =>
    split
    next => rfl
    next => split <;> rfl

/-- An event that was logged is the last line. -/
theorem log_eq_ok (h : (l.log fs event data now).1 = .ok ()) :
    ∃ line before, l.line? event data now = some line ∧
      (l.log fs event data now).2.2.get? l.eventsPlace =
        some (.file (before ++ Utf8.encode line)) := by
  revert h
  unfold log
  dsimp only
  split <;> intro h
  next => cases h
  next touched _ =>
    revert h
    split <;> intro h
    next => cases h
    next line hline =>
      revert h
      cases hbytes : Files.bytesOf line with
      | error f =>
        intro h
        cases h
      | ok bytes =>
        obtain ⟨rfl, -⟩ := Files.bytesOf_eq_ok hbytes
        dsimp only [Except.bind]
        split <;> intro h
        next => cases h
        next after hafter =>
          obtain ⟨⟨before, hfile⟩, -⟩ := Files.append_eq_ok hafter
          exact ⟨line, before, hline, hfile⟩

/-- A summary that was written is the document of its payload, and the events are as they were. -/
theorem finalize_eq_ok {summary : Mapping} (h : l.finalize fs summary now = .ok after) :
    (∃ text, Json.print .indented 0 (.map (l.payload summary now)) = some text ∧
      after.get? l.summaryPlace = some (.file (Utf8.encode (text ++ ['\n'])))) ∧
    ∀ {node}, fs.get? l.eventsPlace = some node → after.get? l.eventsPlace = some node := by
  unfold finalize at h
  split at h
  next => cases h
  next text htext =>
    split at h
    next => cases h
    next => cases h
    next made bytes hmade hbytes =>
      obtain ⟨rfl, -⟩ := Files.bytesOf_eq_ok hbytes
      obtain ⟨hfile, hothers⟩ := Files.write_eq_ok h
      refine ⟨⟨text, htext, hfile⟩, fun hnode => ?_⟩
      rw [hothers _ l.eventsPlace_ne_summaryPlace]
      exact Files.makeWay_get? hmade hnode

/-- The line of an event without its end: its document, if it has one and that has bytes. -/
def eventText? (l : Ledger) (event : String) (data : Value) (now : Number) : Option (List Char) :=
  (Json.print .compact 0 (l.entry event data now)).filter fun text => Text.Whole text

/-- The document of a summary, if it has one and that has bytes. -/
def summaryText? (l : Ledger) (summary : Mapping) (now : Number) : Option (List Char) :=
  (Json.print .indented 0 (.map (l.payload summary now))).filter fun text => Text.Whole text

/-- The bytes that a line adds to a file. -/
def lineBytes (line : Option (List Char)) : List UInt8 := line.elim [] fun text => Utf8.encode (text ++ ['\n'])

theorem whole_line {text : List Char} : Text.Whole (text ++ ['\n']) ↔ Text.Whole text := by
  rw [Text.whole_append, and_iff_left (by decide)]

/-- Nothing but the data can keep an event from having a document. -/
theorem print_entry_eq_none_iff (l : Ledger) (event : String) (data : Value) (now : Number) :
    Json.print .compact 0 (l.entry event data now) = none ↔ data.HoldsUnwritable := by
  have hnumber : Json.print .compact 1 (numberValue now) ≠ none := by
    cases now <;> simp [numberValue, Json.print]
  have hdata : Json.print .compact 1 data = none ↔ data.HoldsUnwritable := Json.print_eq_none_iff
  rw [entry, Value.record, Json.print, Option.map_eq_none_iff, Json.printEntries_eq_none_iff, ← hdata]
  simp [Key.IsUnwritable, Json.print, hnumber]

/-- The number of events is in the summary, unless the run has a word of its own for it. -/
theorem getText?_payload_total {summary : Mapping} (h : .text "total_logs" ∉ Mapping.keys summary) :
    Mapping.getText? (l.payload summary now) "total_logs" = some (.ofNat l.total) := by
  rw [payload, Mapping.getText?_update_of_notMem h]
  simp [Mapping.getText?_cons, Mapping.same_text]

theorem eventText?_eq_some_iff {text : List Char} : l.eventText? event data now = some text ↔
    Json.print .compact 0 (l.entry event data now) = some text ∧ Text.Whole text := by
  rw [eventText?, Option.filter_eq_some_iff, decide_eq_true_iff]

/-- An event has no line if its data has a key without a text, or if half a character is in its document. -/
theorem eventText?_eq_none_iff : l.eventText? event data now = none ↔ data.HoldsUnwritable ∨
    ∃ text, Json.print .compact 0 (l.entry event data now) = some text ∧ ¬Text.Whole text := by
  rw [eventText?, ← print_entry_eq_none_iff l event data now]
  cases Json.print .compact 0 (l.entry event data now) <;> simp

theorem summaryText?_eq_some_iff {summary : Mapping} {text : List Char} : l.summaryText? summary now = some text ↔
    Json.print .indented 0 (.map (l.payload summary now)) = some text ∧ Text.Whole text := by
  rw [summaryText?, Option.filter_eq_some_iff, decide_eq_true_iff]

theorem oneLine_eventText {text : List Char} (h : l.eventText? event data now = some text) : Text.OneLine text :=
  Json.oneLine_print (eventText?_eq_some_iff.1 h).1

/-- A ledger whose directory is there, with no directory in the place of its events, logs every event that has a
line, and of any other it leaves nothing. -/
theorem log_spec (hfs : fs.Sound) (hplace : fs.get? l.place = some .directory)
    (hevents : fs.get? l.eventsPlace ≠ some .directory) (event : String) (data : Value) (now : Number) :
    ((l.log fs event data now).1 = .ok () ↔ (l.eventText? event data now).isSome) ∧
      (l.log fs event data now).2.2.get? l.eventsPlace =
        some (.file (fs.content l.eventsPlace ++ lineBytes (l.eventText? event data now))) ∧
      ∀ q ≠ l.eventsPlace, (l.log fs event data now).2.2.get? q = fs.get? q := by
  have hway : fs.obstacle? [] l.eventsPlace = none := hfs.obstacle?_concat hplace (by decide)
  -- the file is opened first, so it is there whatever becomes of the event
  obtain ⟨opened, htouch, hfile, hothers⟩ := Files.exists_append hevents hway []
  rw [List.append_nil] at hfile
  have hplain : ∀ total, ({ l with total } : Ledger).eventsPlace = l.eventsPlace := fun _ => rfl
  have hline : ∀ total, ({ l with total } : Ledger).line? event data now = l.line? event data now := fun _ => rfl
  simp only [log, hplain, hline, htouch]
  cases htext : l.eventText? event data now with
  | some text =>
    obtain ⟨hprint, hwhole⟩ := eventText?_eq_some_iff.1 htext
    have hagain : opened.obstacle? [] l.eventsPlace = none := (Files.spares_of_get? hevents hothers).obstacle? hway
    obtain ⟨after, happend, hline, hkept⟩ := Files.exists_append (by simp [hfile]) hagain (Utf8.encode (text ++ ['\n']))
    rw [Files.content_of_get? hfile] at hline
    simp only [line?, hprint, Option.map_some, Files.bytesOf_of_whole (whole_line.2 hwhole), Except.bind, happend]
    exact ⟨by simp, hline, fun q hq => (hkept q hq).trans (hothers q hq)⟩
  | none =>
    have hfailed : (.file (fs.content l.eventsPlace ++ lineBytes none) : Node) = .file (fs.content l.eventsPlace) := by
      simp [lineBytes]
    rw [hfailed]
    cases hprint : Json.print .compact 0 (l.entry event data now) with
    | none =>
      simp only [line?, hprint, Option.map_none]
      exact ⟨by simp, hfile, hothers⟩
    | some text =>
      have hwhole : ¬Text.Whole text := by simpa using Option.filter_eq_none_iff.1 htext text hprint
      obtain ⟨f, hf⟩ := Files.bytesOf_of_not_whole (mt whole_line.1 hwhole)
      simp only [line?, hprint, Option.map_some, hf, Except.bind]
      exact ⟨by simp, hfile, hothers⟩

/-- A ledger whose directory is there, with no directory in the place of its summary, writes every summary that has
a document, and of any other it leaves nothing. -/
theorem finalize_spec (hfs : fs.Sound) (hplace : fs.get? l.place = some .directory)
    (hsummary : fs.get? l.summaryPlace ≠ some .directory) (summary : Mapping) (now : Number) :
    (∃ text after, l.summaryText? summary now = some text ∧ l.finalize fs summary now = .ok after ∧
      after.get? l.summaryPlace = some (.file (Utf8.encode (text ++ ['\n']))) ∧
      ∀ q ≠ l.summaryPlace, after.get? q = fs.get? q) ∨
    l.summaryText? summary now = none ∧ ∃ f, l.finalize fs summary now = .error f := by
  have hway : fs.obstacle? [] l.summaryPlace = none := hfs.obstacle?_concat hplace (by decide)
  unfold finalize
  cases htext : l.summaryText? summary now with
  | some text =>
    obtain ⟨hprint, hwhole⟩ := summaryText?_eq_some_iff.1 htext
    simp only [hprint, hfs.makeDirectories hplace, Files.bytesOf_of_whole (whole_line.2 hwhole)]
    obtain ⟨after, hwrite, hfile⟩ := Files.exists_write hsummary hway (Utf8.encode (text ++ ['\n']))
    exact .inl ⟨text, after, rfl, hwrite, hfile⟩
  | none =>
    refine .inr ⟨rfl, ?_⟩
    cases hprint : Json.print .indented 0 (.map (l.payload summary now)) with
    | none => exact ⟨_, rfl⟩
    | some text =>
      have hwhole : ¬Text.Whole text := by simpa using Option.filter_eq_none_iff.1 htext text hprint
      obtain ⟨f, hf⟩ := Files.bytesOf_of_not_whole (mt whole_line.1 hwhole)
      simp only [hfs.makeDirectories hplace, hf]
      exact ⟨f, rfl⟩

/-- The directory that a ledger makes for itself is there, in a tree that is as sound as before. -/
theorem create_spec {current : Place} {runId iterable : Option String} {fresh : String} {base : Route}
    (hfs : fs.Sound) (hcurrent : fs.get? current = some .directory)
    (h : create fs current runId fresh iterable base now = .ok (l, after)) :
    after.Sound ∧ after.get? l.place = some .directory := by
  unfold create at h
  extract_lets id directory at h
  have hstart : fs.get? (directory.start current) = some .directory := by
    unfold Route.start
    split
    · exact hcurrent
    · rfl
  cases hway : fs.makeWay (directory.start current) directory.parts with
  | error f =>
    rw [hway] at h
    cases h
  | ok made =>
    rw [hway] at h
    cases h
    exact hfs.makeWay hstart hway

end

/-! ### Ledgers that share a directory -/

variable {ι : Type}

/-- A call of one of several ledgers. -/
inductive Call (ι : Type) where
  | log (i : ι) (event : String) (data : Value) (now : Number)
  | finalize (i : ι) (summary : Mapping) (now : Number)

namespace Call

/-- The line that a call leaves. -/
def line? (ledgers : ι → Ledger) : Call ι → Option (List Char)
  | .log i event data now => (ledgers i).eventText? event data now
  | .finalize .. => none

/-- The summary that a call leaves. -/
def document? (ledgers : ι → Ledger) : Call ι → Option (List Char)
  | .log .. => none
  | .finalize i summary now => (ledgers i).summaryText? summary now

/-- Whether an event is logged with this ledger. -/
def logs [DecidableEq ι] (i : ι) : Call ι → Bool
  | .log j .. => j = i
  | .finalize .. => false

/-- The line of an event does not depend on how many there were before. -/
theorem line?_congr {ledgers others : ι → Ledger} (h : ∀ i, ∃ total, others i = { ledgers i with total })
    (call : Call ι) : call.line? others = call.line? ledgers := by
  cases call with
  | log i event data now =>
    obtain ⟨total, heq⟩ := h i
    rw [line?, line?, heq]
    rfl
  | finalize => rfl

theorem oneLine_of_line? {ledgers : ι → Ledger} {call : Call ι} {line : List Char}
    (h : call.line? ledgers = some line) : Text.OneLine line := by
  cases call with
  | log i event data now => exact oneLine_eventText h
  | finalize => cases h

end Call

/-- Files, and the ledgers that are kept in them. -/
structure Shelf (ι : Type) where
  files : Files
  ledgers : ι → Ledger

namespace Shelf

/-- Every ledger is kept in the directory, which is there and has no directory where their files are. -/
structure Shares (s : Shelf ι) (p : Place) : Prop where
  place : ∀ i, (s.ledgers i).place = p
  sound : s.files.Sound
  directory : s.files.get? p = some .directory
  events : s.files.get? (p ++ ["events.jsonl"]) ≠ some .directory
  summary : s.files.get? (p ++ ["summary.json"]) ≠ some .directory

/-- So it is once one of the ledgers has made the directory. -/
theorem shares_of_create {fs files : Files} {current : Place} {runId iterable : Option String} {fresh : String}
    {base : Route} {now : Number} {l : Ledger} {ledgers : ι → Ledger} (hfs : fs.Sound)
    (hcurrent : fs.get? current = some .directory)
    (h : create fs current runId fresh iterable base now = .ok (l, files)) (hplace : ∀ i, (ledgers i).place = l.place)
    (hevents : files.get? l.eventsPlace ≠ some .directory) (hsummary : files.get? l.summaryPlace ≠ some .directory) :
    Shares ⟨files, ledgers⟩ l.place :=
  have hmade := create_spec hfs hcurrent h
  ⟨hplace, hmade.1, hmade.2, hevents, hsummary⟩

variable [DecidableEq ι] {s : Shelf ι} {p : Place}

/-- Makes a call. One that fails to write a summary changes nothing. -/
def call (s : Shelf ι) : Call ι → Except Fault Unit × Shelf ι
  | .log i event data now =>
    let (answer, l, files) := (s.ledgers i).log s.files event data now
    (answer, ⟨files, Function.update s.ledgers i l⟩)
  | .finalize i summary now =>
    match (s.ledgers i).finalize s.files summary now with
    | .ok files => (.ok (), { s with files })
    | .error f => (.error f, s)

/-- The shelf after some calls, whatever came of each. -/
def after (s : Shelf ι) (calls : List (Call ι)) : Shelf ι := calls.foldl (fun s call => (s.call call).2) s

theorem after_concat (s : Shelf ι) (calls : List (Call ι)) (call : Call ι) :
    s.after (calls ++ [call]) = ((s.after calls).call call).2 := by
  rw [after, List.foldl_append]
  rfl

theorem after_append (s : Shelf ι) (earlier later : List (Call ι)) :
    s.after (earlier ++ later) = (s.after earlier).after later :=
  List.foldl_append

/-- Everything that a call does in the directory. -/
structure Step (s : Shelf ι) (p : Place) (call : Call ι) (answer : Except Fault Unit) (next : Shelf ι) : Prop where
  shares : next.Shares p
  answer : answer = .ok () ↔ (call.line? s.ledgers).isSome ∨ (call.document? s.ledgers).isSome
  events : next.files.content (p ++ ["events.jsonl"]) =
    s.files.content (p ++ ["events.jsonl"]) ++ lineBytes (call.line? s.ledgers)
  summary : next.files.get? (p ++ ["summary.json"]) =
    (call.document? s.ledgers).elim (s.files.get? (p ++ ["summary.json"])) fun text =>
      some (.file (Utf8.encode (text ++ ['\n'])))
  total : ∀ i, next.ledgers i =
    { s.ledgers i with total := (s.ledgers i).total + if call.logs i then 1 else 0 }

theorem Shares.step_log (hs : s.Shares p) (i : ι) (event : String) (data : Value) (now : Number) :
    s.Step p (.log i event data now) (s.call (.log i event data now)).1 (s.call (.log i event data now)).2 := by
  have hevents : (s.ledgers i).eventsPlace = p ++ ["events.jsonl"] := by rw [eventsPlace, hs.place]
  obtain ⟨hanswer, hfile, hothers⟩ := log_spec (l := s.ledgers i) hs.sound ((hs.place i).symm ▸ hs.directory)
    (hevents ▸ hs.events) event data now
  have htotal := (s.ledgers i).log_total s.files event data now
  rw [call]
  generalize (s.ledgers i).log s.files event data now = done at hanswer hfile hothers htotal ⊢
  obtain ⟨answer, l, files⟩ := done
  dsimp only at hanswer hfile hothers htotal ⊢
  rw [hevents] at hfile hothers
  have hledgers : ∀ j, Function.update s.ledgers i l j =
      { s.ledgers j with total := (s.ledgers j).total + if (Call.log i event data now).logs j then 1 else 0 } := by
    intro j
    by_cases hj : j = i
    · subst hj
      simp [Call.logs, htotal]
    · simp [Call.logs, hj, Ne.symm hj]
  have hsummary : files.get? (p ++ ["summary.json"]) = s.files.get? (p ++ ["summary.json"]) := hothers _ (by simp)
  exact {
    shares := {
      place := fun j => (congrArg Ledger.place (hledgers j)).trans (hs.place j)
      sound := hs.sound.of_get? hs.events (by simp [hfile]) hothers
      directory := by rw [hothers _ (by simp)]; exact hs.directory
      events := by simp [hfile]
      summary := by rw [hsummary]; exact hs.summary }
    answer := by simpa [Call.line?, Call.document?] using hanswer
    events := Files.content_of_get? hfile
    summary := hsummary
    total := hledgers }

theorem Shares.step_finalize (hs : s.Shares p) (i : ι) (summary : Mapping) (now : Number) :
    s.Step p (.finalize i summary now) (s.call (.finalize i summary now)).1
      (s.call (.finalize i summary now)).2 := by
  have hsummary : (s.ledgers i).summaryPlace = p ++ ["summary.json"] := by rw [summaryPlace, hs.place]
  rw [call]
  rcases finalize_spec (l := s.ledgers i) hs.sound ((hs.place i).symm ▸ hs.directory) (hsummary ▸ hs.summary) summary
    now with ⟨text, files, htext, hwritten, hfile, hothers⟩ | ⟨htext, f, hfailed⟩
  · rw [hsummary] at hfile hothers
    rw [hwritten]
    have hevents : files.get? (p ++ ["events.jsonl"]) = s.files.get? (p ++ ["events.jsonl"]) := hothers _ (by simp)
    exact {
      shares := {
        place := hs.place
        sound := hs.sound.of_get? hs.summary (by simp [hfile]) hothers
        directory := by rw [hothers _ (by simp)]; exact hs.directory
        events := by rw [hevents]; exact hs.events
        summary := by simp [hfile] }
      answer := by simp [Call.document?, htext]
      events := by simp [Files.content, hevents, Call.line?, lineBytes]
      summary := by rw [hfile, Call.document?, htext]; rfl
      total := fun j => rfl }
  · rw [hfailed]
    exact {
      shares := hs
      answer := by simp [Call.line?, Call.document?, htext]
      events := by simp [Call.line?, lineBytes]
      summary := by rw [Call.document?, htext]; rfl
      total := fun j => rfl }

theorem Shares.step (hs : s.Shares p) (call : Call ι) : s.Step p call (s.call call).1 (s.call call).2 := by
  cases call with
  | log i event data now => exact hs.step_log i event data now
  | finalize i summary now => exact hs.step_finalize i summary now

theorem Shares.after (hs : s.Shares p) (calls : List (Call ι)) : (s.after calls).Shares p := by
  induction calls using List.reverseRecOn with
  | nil => exact hs
  | append_singleton calls call ih =>
    rw [after_concat]
    exact (ih.step call).shares

/-- Every event counts for its ledger, and nothing else about a ledger changes. -/
theorem Shares.ledgers_after (hs : s.Shares p) (calls : List (Call ι)) (i : ι) : (s.after calls).ledgers i =
    { s.ledgers i with total := (s.ledgers i).total + calls.countP (Call.logs i) } := by
  induction calls using List.reverseRecOn with
  | nil => rfl
  | append_singleton calls call ih =>
    rw [after_concat, ((hs.after calls).step call).total, ih, List.countP_append, List.countP_singleton, Nat.add_assoc]

theorem Shares.line?_after (hs : s.Shares p) (calls : List (Call ι)) (call : Call ι) :
    call.line? (s.after calls).ledgers = call.line? s.ledgers :=
  Call.line?_congr (fun i => ⟨_, hs.ledgers_after calls i⟩) call

/-- The lines that calls leave, in their order. -/
def lines (s : Shelf ι) (calls : List (Call ι)) : List (List Char) := calls.filterMap (Call.line? s.ledgers)

omit [DecidableEq ι] in
theorem oneLine_lines {calls : List (Call ι)} : ∀ line ∈ s.lines calls, Text.OneLine line := by
  intro line hline
  obtain ⟨call, -, hcall⟩ := List.mem_filterMap.1 hline
  exact Call.oneLine_of_line? hcall

/-- Calls add their lines to the file, each with its end. -/
theorem Shares.events_after (hs : s.Shares p) (calls : List (Call ι)) :
    (s.after calls).files.content (p ++ ["events.jsonl"]) =
      s.files.content (p ++ ["events.jsonl"]) ++ Utf8.encode (Text.ofLines (s.lines calls)) := by
  induction calls using List.reverseRecOn with
  | nil => simp [Shelf.after, lines, Text.ofLines, Utf8.encode]
  | append_singleton calls call ih =>
    rw [after_concat, ((hs.after calls).step call).events, ih, hs.line?_after]
    cases hline : call.line? s.ledgers <;> simp [lines, lineBytes, hline, Text.ofLines, Utf8.encode]

/-- The call writes a summary: it does not log anything, and does not fail. -/
def Sums (s : Shelf ι) (call : Call ι) : Prop :=
  match call with
  | .log .. => False
  | .finalize .. => (s.call call).1 = .ok ()

theorem Shares.sums_iff (hs : s.Shares p) {call : Call ι} : s.Sums call ↔ (call.document? s.ledgers).isSome := by
  cases call with
  | log => simp [Sums, Call.document?]
  | finalize i summary now => simpa [Sums, Call.line?] using (hs.step (.finalize i summary now)).answer

/-- None of the calls, made one after another, writes a summary. -/
def Silent (s : Shelf ι) : List (Call ι) → Prop
  | [] => True
  | call :: calls => ¬s.Sums call ∧ (s.call call).2.Silent calls

theorem silent_concat {calls : List (Call ι)} {call : Call ι} :
    s.Silent (calls ++ [call]) ↔ s.Silent calls ∧ ¬(s.after calls).Sums call := by
  induction calls generalizing s with
  | nil => simp [Silent, after]
  | cons first calls ih =>
    rw [List.cons_append, Silent, ih, Silent, and_assoc]
    rfl

/-- The summary is the document of the last call that wrote one; before there is such a call it is as it was. -/
theorem Shares.summary_after (hs : s.Shares p) (calls : List (Call ι)) :
    (s.Silent calls ∧ (s.after calls).files.get? (p ++ ["summary.json"]) = s.files.get? (p ++ ["summary.json"])) ∨
    ∃ earlier call later text, calls = earlier ++ call :: later ∧
      (s.after earlier).Sums call ∧ (s.after (earlier ++ [call])).Silent later ∧
      call.document? (s.after earlier).ledgers = some text ∧
      (s.after calls).files.get? (p ++ ["summary.json"]) = some (.file (Utf8.encode (text ++ ['\n']))) := by
  induction calls using List.reverseRecOn with
  | nil => exact .inl ⟨trivial, rfl⟩
  | append_singleton calls call ih =>
    have hsummary := ((hs.after calls).step call).summary
    have hsums : (s.after calls).Sums call ↔ (call.document? (s.after calls).ledgers).isSome :=
      (hs.after calls).sums_iff
    rw [after_concat]
    cases htext : call.document? (s.after calls).ledgers with
    | some text =>
      rw [htext] at hsummary hsums
      exact .inr ⟨calls, call, [], text, rfl, hsums.2 rfl, trivial, htext, hsummary⟩
    | none =>
      rw [htext] at hsummary hsums
      have hnot : ¬(s.after calls).Sums call := fun h => Bool.false_ne_true (hsums.1 h)
      rcases ih with ⟨hsilent, hsame⟩ | ⟨earlier, last, later, text, rfl, hlast, hsilent, hlastText, hfile⟩
      · exact .inl ⟨silent_concat.2 ⟨hsilent, hnot⟩, hsummary.trans hsame⟩
      · have hafter : s.after (earlier ++ last :: later) = (s.after (earlier ++ [last])).after later := by
          rw [← after_append, List.append_assoc, List.singleton_append]
        rw [hafter] at hnot
        exact .inr ⟨earlier, last, later ++ [call], text, by simp, hlast, silent_concat.2 ⟨hsilent, hnot⟩, hlastText,
          hsummary.trans hfile⟩

/-- What calls leave in a directory, and of the ledgers that are kept there. -/
structure Record (s : Shelf ι) (p : Place) (calls : List (Call ι)) : Prop where
  /-- The later of them only add their lines, behind all that was there. -/
  appended : ∀ earlier later, calls = earlier ++ later → (s.after calls).files.content (p ++ ["events.jsonl"]) =
    (s.after earlier).files.content (p ++ ["events.jsonl"]) ++ Utf8.encode (Text.ofLines (s.lines later))
  /-- A file of lines, such as one without any, has theirs behind its own, and nothing else between line ends. -/
  split : ∀ old, (∀ line ∈ old, Text.OneLine line) →
    s.files.content (p ++ ["events.jsonl"]) = Utf8.encode (Text.ofLines old) →
    ∃ text, Utf8.decode ((s.after calls).files.content (p ++ ["events.jsonl"])) = some text ∧
      Text.split '\n' text = old ++ s.lines calls ++ [[]]
  oneLine : ∀ line ∈ s.lines calls, Text.OneLine line
  /-- An event that leaves no line has a key without a text in its data, or half a character in its document. -/
  missing : ∀ i event data now, (Call.log i event data now).line? s.ledgers = none ↔ data.HoldsUnwritable ∨
    ∃ text, Json.print .compact 0 ((s.ledgers i).entry event data now) = some text ∧ ¬Text.Whole text
  /-- A call fails just if it has neither a line nor a summary to write. -/
  answered : ∀ earlier call later, calls = earlier ++ call :: later →
    (((s.after earlier).call call).1 = .ok () ↔
      (call.line? s.ledgers).isSome ∨ (call.document? (s.after earlier).ledgers).isSome)
  /-- A call that fails adds nothing to either file. -/
  failed : ∀ earlier call later, calls = earlier ++ call :: later → ((s.after earlier).call call).1 ≠ .ok () →
    (s.after (earlier ++ [call])).files.content (p ++ ["events.jsonl"]) =
      (s.after earlier).files.content (p ++ ["events.jsonl"]) ∧
    (s.after (earlier ++ [call])).files.get? (p ++ ["summary.json"]) =
      (s.after earlier).files.get? (p ++ ["summary.json"])
  /-- An event counts for its ledger, whether it could be logged or not. -/
  counted : ∀ i, (s.after calls).ledgers i =
    { s.ledgers i with total := (s.ledgers i).total + calls.countP (Call.logs i) }
  /-- The summary is as it was, or the whole document of the last call that did not fail to write one. -/
  summed :
    (s.Silent calls ∧ (s.after calls).files.get? (p ++ ["summary.json"]) = s.files.get? (p ++ ["summary.json"])) ∨
    ∃ earlier i summary now later text, calls = earlier ++ .finalize i summary now :: later ∧
      ((s.after earlier).call (.finalize i summary now)).1 = .ok () ∧
      (s.after (earlier ++ [.finalize i summary now])).Silent later ∧
      Json.print .indented 0 (.map (((s.after earlier).ledgers i).payload summary now)) = some text ∧
      (s.after calls).files.get? (p ++ ["summary.json"]) = some (.file (Utf8.encode (text ++ ['\n']))) ∧
      (.text "total_logs" ∉ Mapping.keys summary →
        Mapping.getText? (((s.after earlier).ledgers i).payload summary now) "total_logs" =
          some (.ofNat ((s.ledgers i).total + earlier.countP (Call.logs i))))

/-- Ledgers that share a directory add a line for each event that can be written, and never touch an earlier one. -/
theorem record_of_shares (hs : s.Shares p) (calls : List (Call ι)) : s.Record p calls where
  appended := by
    rintro earlier later rfl
    have hlines : (s.after earlier).lines later = s.lines later :=
      congrArg (later.filterMap ·) (funext fun call => hs.line?_after earlier call)
    rw [after_append, (hs.after earlier).events_after, hlines]
  split := by
    intro old hold hbytes
    have hlines : ∀ line ∈ old ++ s.lines calls, Text.OneLine line :=
      List.forall_mem_append.2 ⟨hold, oneLine_lines⟩
    refine ⟨Text.ofLines (old ++ s.lines calls), ?_, Text.split_ofLines hlines⟩
    rw [hs.events_after, hbytes, ← Utf8.encode_append, ← Text.ofLines_append, Utf8.decode_encode]
  oneLine := oneLine_lines
  missing _ _ _ _ := eventText?_eq_none_iff
  answered := by
    rintro earlier call later rfl
    have hanswer := ((hs.after earlier).step call).answer
    rwa [hs.line?_after] at hanswer
  failed := by
    rintro earlier call later rfl hfailed
    obtain ⟨-, hanswer, hevents, hsummary, -⟩ := (hs.after earlier).step call
    obtain ⟨hline, hdocument⟩ := not_or.1 (mt hanswer.2 hfailed)
    rw [Bool.not_eq_true, Option.isSome_eq_false_iff, Option.isNone_iff_eq_none] at hline hdocument
    rw [after_concat, hevents, hsummary, hline, hdocument]
    exact ⟨List.append_nil _, rfl⟩
  counted := hs.ledgers_after calls
  summed := by
    refine (hs.summary_after calls).imp_right ?_
    rintro ⟨earlier, call, later, text, hcalls, hsums, hsilent, htext, hfile⟩
    cases call with
    | log => cases hsums
    | finalize i summary now =>
      obtain ⟨hprint, -⟩ := summaryText?_eq_some_iff.1 htext
      refine ⟨earlier, i, summary, now, later, text, hcalls, hsums, hsilent, hprint, hfile, fun hsummary => ?_⟩
      rw [getText?_payload_total hsummary, hs.ledgers_after]

/-- Two ledgers of one run, the first of which has made the directory. -/
def twins : Shelf Bool where
  files := ⟨[(["runs"], .directory), (["runs", "r"], .directory)]⟩
  ledgers second := ⟨"r", if second then some "names" else none, ⟨"", ["runs", "r"]⟩, ["runs", "r"], .int 1, 0⟩

/-- Both log and write summaries. One event has a key without a text, one has half a character in it, and one a line
end; the last summary cannot be written. -/
def twinCalls : List (Call Bool) :=
  [.log false "start" (.text "a\nb") (.int 2), .log true "start" (.map [(.bytes [10], .null)]) (.int 3),
    .log true "half" (.text (String.ofList [Text.charOfCode 0xd800])) (.int 4), .log true "end" .null (.int 5),
    .finalize true [(.text "ok", .bool true)] (.int 6), .log false "late" (.list []) (.int 7),
    .finalize false [(.bytes [], .null)] (.int 8)]

theorem shares_twins : twins.Shares ["runs", "r"] := by
  have hcreate : create .empty [] (some "r") "" none ⟨"", ["runs"]⟩ (.int 1) =
      .ok (twins.ledgers false, twins.files) := by rfl
  exact shares_of_create Files.sound_empty rfl hcreate (fun _ => rfl) (by decide +kernel) (by decide +kernel)

theorem record_of_shares_twins :
    twins.Shares ["runs", "r"] ∧ twins.Record ["runs", "r"] twinCalls ∧
      (twins.lines twinCalls).map String.ofList =
        ["\x7b\"run_id\": \"r\", \"event\": \"start\", \"timestamp\": 2, \"data\": \"a\\nb\"\x7d",
          "\x7b\"run_id\": \"r\", \"event\": \"end\", \"timestamp\": 5, \"data\": null\x7d",
          "\x7b\"run_id\": \"r\", \"event\": \"late\", \"timestamp\": 7, \"data\": []\x7d"] ∧
      ((twins.after twinCalls).ledgers true).total = 3 :=
  ⟨shares_twins, record_of_shares shares_twins twinCalls, by decide +kernel, by decide +kernel⟩

end Shelf

end Foreach.Ledger

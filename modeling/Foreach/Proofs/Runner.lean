import Foreach.Proofs.Text.Utf8
import Foreach.Proofs.Text.Whole
import Foreach.Runner.Command

/-!
What a command changes.

Whatever comes of a process, and whatever bytes it wrote, the context has two messages more if the process ended in
time with status zero, and is as it was in every other case. So after any number of texts its messages are those
that were there and, for each success, what was said and answered.

A process that can be started is the system's own, unless half a character is in its text: the environment takes
some of these halves for bytes, but they cannot be sent.
-/

namespace Foreach.CommandRunner

/-! ### What is made of a process -/

/-- Of the bytes of a text its characters are read. -/
theorem decoded_encode (s : String) : decoded (Utf8.encode s.toList) = s := by
  rw [decoded, Utf8.decodeLossy_encode, String.ofList_toList]

/-- The two messages of a success. -/
def exchange (text output : String) : List Mapping :=
  [[(.text "role", .text "user"), (.text "content", .text text)],
    [(.text "role", .text "assistant"), (.text "content", .text output)]]

/-- The process ended in time, with status zero. -/
def Succeeds (p : Process) : Prop := ∃ ending out errors, p = .ended ending out errors ∧ statusOf ending = 0

/-- What a failure tells of a process. -/
inductive Tells (c : Config) : Process → Fault → Prop
  /-- The status of a failed command and its errors; the message shows its errors or, if they are blank, its output. -/
  | exited {ending : Exit} {out errors : List UInt8} {shown : String} (hstatus : statusOf ending ≠ 0)
      (herrors : Text.stripText (decoded errors) ≠ "" → shown = Text.stripText (decoded errors))
      (hout : Text.stripText (decoded errors) = "" → shown = Text.stripText (decoded out))
      (hmessage : (Fault.commandExited (statusOf ending) shown (decoded errors)).message =
        s!"Action command exited with status {statusOf ending}" ++ if shown = "" then "" else ": " ++ shown) :
      Tells c (.ended ending out errors) (.commandExited (statusOf ending) shown (decoded errors))
  /-- The status that a command was killed with. -/
  | timedOut (ending : Exit) :
      Tells c (.timedOut ending) (.commandTimedOut c.limit.display (statusOf ending))
  /-- What kept a command from being run. -/
  | notStarted (f : Fault) : Tells c (.notStarted f) f
  | abandoned (f : Fault) : Tells c (.abandoned f) f

/-- What an action answers and leaves of a context, when its process came to this. -/
structure Concludes (c : Config) (text : String) (p : Process) (before : Context)
    (answer : Except Fault ActionResult) (after : Context) : Prop where
  /-- There is a result just if the process succeeded. -/
  result : (∃ r, answer = .ok r) ↔ Succeeds p
  /-- Then the text and the output have been said, and nothing else is new. -/
  said : ∀ r, answer = .ok r → ∃ ending out errors, p = .ended ending out errors ∧ r.text = text ∧
    r.output = decoded out ∧ r.returncode = 0 ∧
    after = { before with messages := before.messages ++ exchange text r.output }
  /-- In every other case there is a failure that tells of the process, and nothing is new. -/
  told : ¬Succeeds p → after = before ∧ ∃ f, answer = .error f ∧ Tells c p f

theorem converse_ok (before : Context) (r : ActionResult) :
    converse before (.ok r) = { before with messages := before.messages ++ exchange r.text r.output } := by
  simp [converse, Context.addMessage, exchange, Mapping.update]

theorem exitMessage_eq (status : Int) (shown : String) : Fault.exitMessage status shown =
    s!"Action command exited with status {status}" ++ if shown = "" then "" else ": " ++ shown := by
  unfold Fault.exitMessage
  split
  next => exact String.append_empty.symm
  next => exact String.append_assoc

theorem Concludes.of_error {c : Config} {text : String} {p : Process} {before : Context} {f : Fault}
    (hfailed : ¬Succeeds p) (htells : Tells c p f) : Concludes c text p before (.error f) before where
  result := by
    refine ⟨?_, fun h => absurd h hfailed⟩
    rintro ⟨_, ⟨⟩⟩
  said := by rintro _ ⟨⟩
  told _ := ⟨rfl, f, rfl, htells⟩

/-- Whatever came of a process is concluded so. -/
theorem concludes (c : Config) (text : String) (p : Process) (before : Context) :
    Concludes c text p before (conclude c text p) (converse before (conclude c text p)) := by
  cases p with
  | ended ending out errors =>
    by_cases hstatus : statusOf ending = 0
    · have hsucceeds : Succeeds (.ended ending out errors) := ⟨ending, out, errors, rfl, hstatus⟩
      rw [conclude]
      simp only [if_pos hstatus]
      refine ⟨iff_of_true ⟨_, rfl⟩ hsucceeds, fun r hr => ?_, fun h => absurd hsucceeds h⟩
      cases hr
      exact ⟨ending, out, errors, rfl, rfl, rfl, rfl, converse_ok before _⟩
    · have hfailed : ¬Succeeds (.ended ending out errors) := by
        rintro ⟨_, _, _, ⟨⟩, hzero⟩
        exact hstatus hzero
      rw [conclude]
      simp only [if_neg hstatus]
      exact .of_error hfailed (.exited hstatus (fun h => if_neg h) (fun h => if_pos h) (exitMessage_eq _ _))
  | timedOut ending => exact .of_error (by rintro ⟨_, _, _, ⟨⟩, -⟩) (.timedOut ending)
  | notStarted f => exact .of_error (by rintro ⟨_, _, _, ⟨⟩, -⟩) (.notStarted f)
  | abandoned f => exact .of_error (by rintro ⟨_, _, _, ⟨⟩, -⟩) (.abandoned f)

/-! ### Which processes there are -/

theorem inputRefusal?_of_whole {text : String} (h : Text.Whole text.toList) : inputRefusal? text = none := by
  rw [inputRefusal?, Utf8.encode?_of_whole h]

theorem inputRefusal?_of_not_whole {text : String} (h : ¬Text.Whole text.toList) :
    ∃ m, inputRefusal? text = some (.unencodable m) := by
  unfold inputRefusal?
  split
  next hencode => exact absurd (Utf8.encode?_eq_ok hencode).2 h
  next m _ => exact ⟨m, rfl⟩

/-- What is started is run by the system if its text can be sent. -/
theorem launch_of_whole (system : System) {c : Config} {files : Files} {text : String}
    (hstart : launchRefusal? c files text = none) (hwhole : Text.Whole text.toList) :
    launch system c files text = system c files text := by
  simp only [launch, hstart, inputRefusal?_of_whole hwhole]

/-- What is started comes to nothing if its text cannot be sent. -/
theorem launch_of_not_whole (system : System) {c : Config} {files : Files} {text : String}
    (hstart : launchRefusal? c files text = none) (hhalf : ¬Text.Whole text.toList) :
    ∃ m, launch system c files text = (.abandoned (.unencodable m), files) := by
  obtain ⟨m, hm⟩ := inputRefusal?_of_not_whole hhalf
  exact ⟨m, by simp only [launch, hstart, hm]⟩

/-- The context changes on success alone. Whatever starts the processes, an action concludes what came of its own
one. A process that can be started is what the system makes of it if its text is whole; for any other text the
action fails and changes nothing, whatever the system. -/
theorem invoke_concludes (c : Config) :
    (∀ (σ : Type) (start : σ → String → Process × σ) (text : String) (s : Surroundings σ),
      Concludes c text (start s.state text).1 s.context ((runnerOf c start).invoke text s).1
        ((runnerOf c start).invoke text s).2.context) ∧
    ∀ (system : System) (files : Files) (text : String), launchRefusal? c files text = none →
      (Text.Whole text.toList → launch system c files text = system c files text) ∧
      (¬Text.Whole text.toList → ∀ context, ∃ m, (runner system c).invoke text ⟨context, files⟩ =
        (.error (.unencodable m), ⟨context, files⟩)) := by
  refine ⟨fun σ start text s => concludes c text (start s.state text).1 s.context, fun system files text hstart => ?_⟩
  refine ⟨launch_of_whole system hstart, fun hhalf context => ?_⟩
  obtain ⟨m, hm⟩ := launch_of_not_whole system hstart hhalf
  exact ⟨m, by simp only [runner, runnerOf, hm, conclude, converse]⟩

/-- A command that does nothing, with five seconds to do it in. -/
def idle : Config := ⟨"true", .int 5, [], none, []⟩

/-- Every command ends at once and in silence. -/
def quiet : System := fun _ files _ => (.ended (.exited 0) [] [], files)

/-- A text that stands for a byte in the environment, and that no bytes encode. -/
def byteText : String := String.ofList [Text.charOfCode 0xdc80]

theorem invoke_concludes_idle :
    (launchRefusal? idle .empty "a" = none ∧ Text.Whole "a".toList ∧
      launch quiet idle .empty "a" = (.ended (.exited 0) [] [], .empty)) ∧
    (launchRefusal? idle .empty byteText = none ∧ ¬Text.Whole byteText.toList ∧
      ∃ m, (runner quiet idle).invoke byteText ⟨.empty, .empty⟩ = (.error (.unencodable m), ⟨.empty, .empty⟩)) ∧
    Concludes idle "a" (.ended (.killed 15) [111, 255, 10] [32, 10]) .empty
      (.error (.commandExited (-15) "o\ufffd" " \n")) .empty := by
  have hstarted : launchRefusal? idle .empty "a" = none := by decide +kernel
  have hbyte : launchRefusal? idle .empty byteText = none := by decide +kernel
  have hwhole : Text.Whole "a".toList := by decide
  have hhalf : ¬Text.Whole byteText.toList := by decide
  obtain ⟨hconcludes, hruns⟩ := invoke_concludes idle
  refine ⟨⟨hstarted, hwhole, (hruns quiet .empty "a" hstarted).1 hwhole⟩,
    ⟨hbyte, hhalf, (hruns quiet .empty byteText hbyte).2 hhalf .empty⟩, ?_⟩
  exact hconcludes Nat (fun n _ => (.ended (.killed 15) [111, 255, 10] [32, 10], n + 1)) "a" ⟨.empty, 0⟩

/-- Where every process ends at once, one that can be started fails with neither a status nor because its time was
over. -/
theorem byteText_is_not_sent : ¬∀ (c : Config) (files : Files) (text : String) (context : Context) (f : Fault),
    launchRefusal? c files text = none →
    ((runner quiet c).invoke text ⟨context, files⟩).1 = .error f →
      (∃ status shown errors, f = .commandExited status shown errors) ∨
        ∃ limit status, f = .commandTimedOut limit status := by
  intro h
  have hstarted : launchRefusal? idle .empty byteText = none := by decide +kernel
  obtain ⟨m, hm⟩ := launch_of_not_whole quiet hstarted (by decide)
  have hfailed : ((runner quiet idle).invoke byteText ⟨.empty, .empty⟩).1 = .error (.unencodable m) := by
    simp only [runner, runnerOf, hm, conclude]
  rcases h idle .empty byteText .empty _ hstarted hfailed with ⟨_, _, _, ⟨⟩⟩ | ⟨_, _, ⟨⟩⟩

/-! ### One text after another -/

/-- Invokes an action for each of the texts, whatever comes of those before. -/
def invokeAll {σ : Type} (r : Runner σ) :
    List String → Surroundings σ → List (Except Fault ActionResult) × Surroundings σ
  | [], s => ([], s)
  | text :: texts, s =>
    let (answer, s) := r.invoke text s
    let (answers, s) := invokeAll r texts s
    (answer :: answers, s)

/-- What an answer adds to the messages. -/
def exchanged : Except Fault ActionResult → List Mapping
  | .ok r => exchange r.text r.output
  | .error _ => []

theorem Concludes.context {c : Config} {text : String} {p : Process} {before after : Context}
    {answer : Except Fault ActionResult} (h : Concludes c text p before answer after) :
    after = { before with messages := before.messages ++ exchanged answer } := by
  cases answer with
  | ok r =>
    obtain ⟨_, _, _, -, htext, -, -, hafter⟩ := h.said r rfl
    rw [hafter, exchanged, htext]
  | error f =>
    have hfailed : ¬Succeeds p := by
      intro hsucceeds
      obtain ⟨_, ⟨⟩⟩ := h.result.2 hsucceeds
    rw [(h.told hfailed).1, exchanged, List.append_nil]

/-- The messages grow by the two of each success, in order, and nothing else in the context changes. -/
theorem invokeAll_context {σ : Type} (c : Config) (start : σ → String → Process × σ) (texts : List String)
    (s : Surroundings σ) : (invokeAll (runnerOf c start) texts s).2.context = { s.context with
      messages := s.context.messages ++ (invokeAll (runnerOf c start) texts s).1.flatMap exchanged } := by
  induction texts generalizing s with
  | nil => simp [invokeAll]
  | cons text texts ih =>
    have hfirst : ((runnerOf c start).invoke text s).2.context = { s.context with
        messages := s.context.messages ++ exchanged ((runnerOf c start).invoke text s).1 } :=
      (concludes c text (start s.state text).1 s.context).context
    simp only [invokeAll, ih, hfirst, List.flatMap_cons, List.append_assoc]

end Foreach.CommandRunner

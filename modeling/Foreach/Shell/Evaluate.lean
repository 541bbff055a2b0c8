import Foreach.Runner.Command
import Foreach.Shell.Call

/-!
Running shell commands.

A pipeline, a group in parentheses and an expansion of a command's output run in a shell of their own:
what they do to variables is lost, but a signal to the shell's process ends all of it. A loop that does
not end in ten thousand turns is given up as endless. As a system for commands, the shell has the
tree of files to itself, and its time is the time it sleeps.
-/

namespace Foreach.Shell

/-- Whether a piece runs a command, whose status may be that of the whole. -/
def runsCommand : Piece → Bool
  | .output _ _ _ => true
  | _ => false

/-- A shell in which a failing command ends it if that is asked for. -/
def checked (m : Machine) : Machine :=
  if m.has 'e' && !m.guarded && m.status ≠ 0 && !m.stopped then
    { m with ending := some (.exited m.status) }
  else m

/-- A shell after a command that had some variables of its own. -/
def takeBack (names : List (List Char)) (before after : Machine) : Machine :=
  let kept := names.filter before.exported.contains
  let restored := names.foldl (fun m n => m.resetVariable n (before.value? n)) after
  { restored with
    exported := after.exported.filter fun n => !names.contains n || kept.contains n }

/-- Shows a command before it runs, if that is asked for, on the streams of the shell around it. -/
def traced (assignments : List (List Char)) (args : Arguments) (before m : Machine) : Machine :=
  if m.has 'x' && !(assignments.isEmpty && args.isEmpty) then
    let values := assignments.map fun name => name ++ '=' :: (m.value? name).getD []
    let shown := { m with streams := before.streams }.complain
      (octetsOf "+ " ++ Utility.spaced (values ++ args) ++ ['\n'])
    { shown with streams := m.streams }
  else m

/-- Runs words as a command, with assignments in front of it; without a command they stay. `words` are
the words before they were expanded, and `before` is the shell around the redirections. -/
def runWords (d : Deeper) (assignments : List (List Char × Word)) (words : List Word) (args : Arguments)
    (before m : Machine) : Machine :=
  let names := assignments.map (·.1)
  if args.isEmpty then
    let ran := (words.flatten ++ assignments.flatMap (·.2)).any runsCommand
    traced names args before (let n := assignAll d m assignments
      if n.ending.isSome then n else n.finish (if ran then n.inner else 0))
  else
    let inner := traced names args before (names.foldl Machine.publish (assignAll d m assignments))
    if inner.ending.isSome then inner
    else
      let after := call d (args.length + 8) args inner
      if Builtin.isSpecial (args.headD []) then after else takeBack names m after

/-- Runs a command of one line. The streams of `exec` stay as they are redirected, and a command of the
shell itself whose streams cannot be redirected ends the shell. -/
def runSimple (d : Deeper) (line : Nat) (words : List Word) (rs : List Redirect) (m : Machine) :
    Machine :=
  let (assignments, words) := takeAssignments words
  let (args, m) := allFields d { m with line } words
  if m.ending.isSome then m
  else
    match redirectAll d m rs with
    | (false, n) =>
      let n := { n with streams := m.streams }
      if Builtin.isSpecial (args.headD []) && n.ending.isNone then
        { n with ending := some (.exited n.status) }
      else n
    | (true, n) =>
      let after := runWords d assignments words args m n
      if args = [octetsOf "exec"] then after else { after with streams := m.streams }

/-- Runs the actions for signals that have come; `fuel` bounds how many are run. -/
def answerSignals (d : Deeper) : Nat → Machine → Machine
  | 0, m => m
  | fuel + 1, m =>
    match m.pending with
    | [] => m
    | n :: rest =>
      if m.stopped then m
      else
        let m := { m with pending := rest }
        match m.traps.lookup n with
        | none => answerSignals d fuel m
        | some action =>
          let after := d.run 1 action m
          answerSignals d fuel (if after.stopped then after else after.finish m.status)

/-- A shell behind a command. -/
def settled (d : Deeper) (m : Machine) : Machine := answerSignals d 100 (checked m)

/-- How a loop goes on behind a turn of its body: with the next turn or not. -/
def afterTurn (m : Machine) : Bool × Machine :=
  match m.jump with
  | none => (!m.stopped, m)
  | some (.leave n) => (false, { m with jump := if n ≤ 1 then none else some (.leave (n - 1)) })
  | some (.goOn n) =>
    if n ≤ 1 then (m.ending.isNone, { m with jump := none })
    else (false, { m with jump := some (.goOn (n - 1)) })
  | some .back => (false, m)

/-- Runs something in a place where a failure is not the end. -/
def guardedly (f : Machine → Machine) (m : Machine) : Machine :=
  { f { m with guarded := true } with guarded := m.guarded }

/-- Runs something inside one more loop. -/
def looping (f : Machine → Machine) (m : Machine) : Machine :=
  { f { m with loops := m.loops + 1 } with loops := m.loops }

/-- Turns of a loop, `last` being the status of the last one. -/
def turns (condition body : Machine → Machine) (inverted : Bool) : Nat → Nat → Machine → Machine
  | 0, _, m => { m with endless := true, ending := some (.killed 9) }
  | fuel + 1, last, m =>
    let m := guardedly condition m
    if m.stopped then m
    else if (m.status = 0) = (inverted = true) then m.finish last
    else
      let (more, m) := afterTurn (body m)
      if more then turns condition body inverted fuel m.status m else m

/-- One turn for each value of a variable. -/
def turnsFor (name : List Char) (body : Machine → Machine) : List (List Char) → Machine → Machine
  | [], m => m
  | v :: vs, m =>
    let m := m.assign name v
    if m.stopped then m
    else
      let (more, m) := afterTurn (body m)
      if more then turnsFor name body vs m else m

/-- Whether one of some patterns fits the subject of the shell. -/
def anyFits (d : Deeper) (m : Machine) : List Word → Bool × Machine
  | [] => (false, m)
  | w :: ws =>
    let (is, m) := wordInk d m w
    if Glob.fits (globOfInk is) m.subject then (true, m) else anyFits d m ws

/-- Runs a command, unless the shell has stopped. -/
def eval (d : Deeper) : Command → Machine → Machine
  | .nothing, m => m
  | .simple line words rs, m => if m.stopped then m else settled d (runSimple d line words rs m)
  | .sequence a b, m => eval d b (eval d a m)
  | .andThen a b, m =>
    let m := guardedly (eval d a) m
    if m.status = 0 then eval d b m else m
  | .orElse a b, m =>
    let m := guardedly (eval d a) m
    if m.status = 0 then m else eval d b m
  | .invert c, m =>
    let m := guardedly (eval d c) m
    if m.stopped then m else m.finish (if m.status = 0 then 1 else 0)
  | .pipe a b, m =>
    if m.stopped then m
    else
      let (channel, inner) := m.apart.pipe
      let first := atEnd d (eval d a inner)
      let text := first.written channel
      let between := (m.rejoin first).drain channel
      let second := atEnd d (eval d b (between.apart.connectText 0 text))
      settled d (between.rejoin second)
  | .background c, m =>
    if m.stopped then m
    else
      let after := m.rejoin (atEnd d (eval d c (m.apart.connect 0 .nothing)))
      { after with
        jobs := (Machine.processNumber + 1 + m.jobs.length, after.status) :: m.jobs, status := 0 }
  | .group line apart c rs, m =>
    if m.stopped then m
    else
      redirected d rs (if rs.isEmpty then m else { m with line }) fun m =>
        if apart then settled d (m.rejoin (atEnd d (eval d c m.apart))) else eval d c m
  | .choose condition yes no, m =>
    if m.stopped then m
    else
      let m := guardedly (eval d condition) m
      if m.status = 0 then eval d yes m else eval d no (m.finish 0)
  | .loop inverted condition body, m =>
    if m.stopped then m
    else looping (turns (eval d condition) (eval d body) inverted 10000 0) m
  | .each line name words body, m =>
    if m.stopped then m
    else
      let (values, m) := match words with
        | some ws => allFields d { m with line } ws
        | none => (m.arguments, m)
      if m.stopped then m else looping (turnsFor name (eval d body) values) (m.finish 0)
  | .select line subject arms, m =>
    if m.stopped then m
    else
      let (text, m) := joined d { m with line } subject
      eval d arms { m with subject := text, status := 0 }
  | .arm patterns body next, m =>
    if m.stopped then m
    else
      let (fits, m) := anyFits d m patterns
      if fits then eval d body m else eval d next m
  | .function name body, m =>
    if m.stopped then m
    else
      { m with
        functions := (name, body) :: m.functions.filter fun (n, _) => n != name, status := 0 }

/-- A shell that has met a mistake in its text, `last` being the text's last line. -/
def misread (last : Nat) (mistake : Mistake) (m : Machine) : Machine :=
  { m with line := mistake.line.getD last }.abandon (octetsOf ("Syntax error: " ++ mistake.flaw.message))

/-- Runs line after line; a line that is wrong ends the shell. -/
def runLines (d : Deeper) (last : Nat) : Nat → List Token → Machine → Machine
  | 0, _, m => m
  | fuel + 1, ts, m =>
    match Command.dropLines ts with
    | [] => m
    | ts =>
      if m.stopped then m
      else
        match Command.readLine ts with
        | .error mistake => misread last mistake m
        | .ok (c, rest) =>
          match c.inner? with
          | some mistake => misread last mistake m
          | none => runLines d last fuel rest (eval d c m)

/-- Runs a text that begins in a line. -/
def runText (d : Deeper) (line : Nat) (text : List Char) (m : Machine) : Machine :=
  runLines d (Token.lastLine line text) (text.length + 1) (Token.ofText line text) m

/-- Runs commands inside one another to a depth. -/
def deeper : Nat → Deeper
  | 0 =>
    let refuse (m : Machine) := m.abandon (octetsOf "Maximum function recursion depth (1000) reached")
    ⟨fun _ _ m => refuse m, fun _ m => refuse m⟩
  | depth + 1 =>
    let d := deeper depth
    ⟨runText d, eval d⟩

/-- Runs a command to its end: how it ended, and the machine after it. -/
def run (text : List Char) (m : Machine) : Exit × Machine :=
  let d := deeper 1001
  let after := runToEnd d text m
  (after.ending.getD (.exited after.status), after)

/-! ### The shell as a system -/

/-- What can limit the time of a process: a number of seconds, or nothing at all. -/
def isLimit : Value → Bool
  | .null => true
  | v => v.number?.isSome

/-- Whether a process that slept for this many milliseconds was too slow, as one is that slept as long as
its limit. With no time at all every one is. -/
def isOverdue (limit : Value) (slept : Nat) : Bool :=
  match limit.number? with
  | none => false
  | some (.int n) => n ≤ 0 || decide (1000 * n ≤ slept)
  | some (.float x) =>
    !Binary64.lt (.ofInt 0) x || (x.isFinite && !Binary64.lt (.ofRatio slept 1000) x)

/-- How a process ends that is killed because its time is over. -/
def overdue : Exit := .killed 9

/-- Runs commands in the shell. -/
def system : CommandRunner.System := fun c files text =>
  let directory := c.directory files
  let pwd := (octetsOf "PWD", octetsOf directory.text)
  let environment := ((CommandRunner.environmentFor c text).filter fun (name, _) => name != "PWD").map
    fun (name, value) => (octetsOf name, octetsOf value)
  let (ending, m) := run (octetsOf c.command)
    (.start (environment ++ [pwd]) files directory (octetsOf text))
  if !isLimit c.limit then
    (.abandoned (.mismatch s!"'<=' not supported between instances of '{c.limit.kindName}' and 'int'"),
      m.files)
  else if m.endless || isOverdue c.limit m.slept then (.timedOut overdue, m.files)
  else (.ended ending (ofOctets (m.written 1)) (ofOctets (m.written 2)), m.files)

end Foreach.Shell

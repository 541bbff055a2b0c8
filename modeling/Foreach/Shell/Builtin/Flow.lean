import Foreach.Shell.Signal

/-!
Commands that change what runs next: ends, jumps, signals and traps.
-/

namespace Foreach.Shell.Builtin

/-- Complains of an argument that is no number. -/
def illegalNumber (a : List Char) (m : Machine) : Machine := m.abandon (octetsOf "Illegal number: " ++ a)

/-- The natural number that an argument is. -/
def natural? (a : List Char) : Option Nat :=
  if !a.isEmpty && a.all Text.isDigit then some (Text.numeral a) else none

/-- The status that an argument gives; the last one if there is no argument. -/
def statusOf? (m : Machine) (args : Arguments) : Option Nat :=
  match args with
  | [] => some m.status
  | a :: _ => natural? a

/-- Ends the shell. Only eight bits of a status are kept. -/
def exit : Utility := fun args m =>
  match statusOf? m args with
  | some status => { m with ending := some (.exited (status % 256)), status }
  | none => illegalNumber (args.headD []) m

/-- Leaves a function or the text of another file, or the shell where there is neither. -/
def goBack : Utility := fun args m =>
  match statusOf? m args with
  | some status =>
    if m.within then { m with jump := some .back, status }
    else { m with ending := some (.exited (status % 256)), status }
  | none => illegalNumber (args.headD []) m

/-- Leaves loops or goes on with the next turn; outside of loops it does nothing. -/
def jump (make : Nat → Jump) : Utility := fun args m =>
  match args.head?.elim (some 1) natural? with
  | none | some 0 => illegalNumber (args.headD []) m
  | some n =>
    if m.loops = 0 then m.finish 0
    else { m with jump := some (make (min n m.loops)), status := 0 }

/-! ### Signals -/

/-- Lists the signals, or names those of statuses. -/
def listSignals : Utility := fun args m =>
  match args with
  | [] => m.answer (Utility.unlines (['0'] :: Signal.names.map octetsOf))
  | a :: _ =>
    match natural? a with
    | none => m.protest 2 (octetsOf "Illegal number: " ++ a)
    | some n =>
      let n := if 128 < n then n - 128 else n
      if n < 65 then m.answer (octetsOf (Signal.nameOf n) ++ ['\n'])
      else m.protest 2 (octetsOf "invalid signal number or exit status: " ++ a)

/-- Sends a signal to the processes with some numbers; there is none but the shell's own. -/
def send (n : Nat) : Arguments → Machine → Machine
  | [], m => m
  | target :: rest, m =>
    match Utility.number? target with
    | none => m.protest 2 (octetsOf "Illegal number: " ++ target)
    | some k =>
      if k = Machine.processNumber ∨ k = 0 then send n rest (Signal.deliver n m)
      else if (m.jobs.lookup k.toNat).isSome then send n rest m
      else send n rest ((m.protest 1 (octetsOf "No such process")).complain ['\n'] |>.finish 1)

def kill : Utility := fun args m =>
  let usage := octetsOf ("Usage: kill [-s sigspec | -signum | -sigspec] [pid | job]... or\n"
    ++ "kill -l [exitstatus]")
  match args with
  | ['-', 'l'] :: rest => listSignals rest m
  | ['-', 's'] :: name :: rest =>
    match Signal.ofWord? name with
    | some n => if rest.isEmpty then m.protest 2 usage else send n rest (m.finish 0)
    | none => m.protest 2 (octetsOf "invalid signal number or name: " ++ name)
  | ['-', '-'] :: rest => if rest.isEmpty then m.protest 2 usage else send 15 rest (m.finish 0)
  | ('-' :: name) :: rest =>
    match Signal.ofWord? name with
    | some n => if rest.isEmpty then m.protest 2 usage else send n rest (m.finish 0)
    | none => m.protest 2 (octetsOf "Illegal option -" ++ name.take 1)
  | [] => m.protest 2 usage
  | rest => send 15 rest (m.finish 0)

/-- A text in single quotes. -/
def inQuotes (cs : List Char) : List Char :=
  let inner := cs.flatMap fun c => if c = '\'' then "'\"'\"'".toList else [c]
  '\'' :: inner ++ ['\'']

/-- Says what is to be run when signals come; without arguments, tells it. -/
def trap : Utility := fun args m =>
  match (if args.head? = some ['-', '-'] then args.drop 1 else args) with
  | [] =>
    let sorted := m.traps.mergeSort fun (a, _) (b, _) => decide (a ≤ b)
    m.answer (sorted.flatMap fun (n, action) =>
      octetsOf "trap -- " ++ inQuotes action ++ octetsOf s!" {Signal.nameOf n}\n")
  | first :: rest =>
    let (action, signals) := if rest.isEmpty then (['-'], [first]) else (first, rest)
    signals.foldl (fun m w =>
      match Signal.ofWord? w with
      | none => m.refuse 1 (octetsOf "trap: " ++ w ++ octetsOf ": bad trap")
      | some n =>
        let others := m.traps.filter fun (k, _) => k != n
        { m with traps := if action = ['-'] then others else (n, action) :: others }) (m.finish 0)

/-- Waits for commands that run on their own; they have all come to their ends. -/
def wait : Utility := fun args m =>
  args.foldl (fun m a =>
    match natural? a with
    | none => m.protest 2 (octetsOf "Illegal number: " ++ a)
    | some n => m.finish ((m.jobs.lookup n).getD 127)) (m.finish 0)

/-- There is no command under the control of the shell. -/
def noJob : Utility := fun _ m => m.protest 2 (octetsOf "No current job")

end Foreach.Shell.Builtin

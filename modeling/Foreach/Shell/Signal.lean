import Foreach.Shell.Machine
import Foreach.Shell.Utility.Basic

/-!
Signals by number and name.
-/

namespace Foreach.Shell.Signal

/-- The names of the signals from 1 on. -/
def names : List String :=
  ["HUP", "INT", "QUIT", "ILL", "TRAP", "ABRT", "BUS", "FPE", "KILL", "USR1", "SEGV", "USR2", "PIPE",
    "ALRM", "TERM", "STKFLT", "CHLD", "CONT", "STOP", "TSTP", "TTIN", "TTOU", "URG", "XCPU", "XFSZ",
    "VTALRM", "PROF", "WINCH", "POLL", "PWR", "SYS"]

/-- The name of a signal; that of number zero is the one of the shell's end. -/
def nameOf (n : Nat) : String := if n = 0 then "EXIT" else (names[n - 1]?).getD (Nat.repr n)

/-- The signal that a word denotes. -/
def ofWord? (w : List Char) : Option Nat :=
  if !w.isEmpty && w.all Text.isDigit then
    if Text.numeral w ≤ 64 then some (Text.numeral w) else none
  else if w = octetsOf "EXIT" then some 0
  else (names.findIdx? fun name => octetsOf name = w).map (· + 1)

/-- Whether a process takes no notice of a signal. -/
def isHarmless (n : Nat) : Bool := n = 17 || n = 18 || n = 23 || n = 28

/-- What is said of a process that a signal has ended. -/
def farewell? (n : Nat) : Option String :=
  match nameOf n with
  | "INT" | "PIPE" => none
  | "HUP" => some "Hangup"
  | "QUIT" => some "Quit"
  | "ABRT" => some "Aborted"
  | "KILL" => some "Killed"
  | "USR1" => some "User defined signal 1"
  | "USR2" => some "User defined signal 2"
  | "SEGV" => some "Segmentation fault"
  | "ALRM" => some "Alarm clock"
  | "TERM" => some "Terminated"
  | name => some s!"Signal {name}"

/-- What the shell does when it gets a signal. -/
def deliver (n : Nat) (m : Machine) : Machine :=
  if n = 0 then m
  else
    match if n = 9 ∨ n = 19 then none else m.traps.lookup n with
    | some [] => m
    | some _ => { m with pending := m.pending ++ [n] }
    | none => if isHarmless n then m else { m with ending := some (.killed n) }

end Foreach.Shell.Signal

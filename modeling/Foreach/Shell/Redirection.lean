import Foreach.Shell.Expand

/-!
Redirecting streams.
-/

namespace Foreach.Shell

/-- The device that keeps nothing and holds nothing. -/
def isNullDevice (route : List Char) : Bool := route = octetsOf "/dev/null"

/-- The stream that a device stands for. -/
def streamOfDevice? (route : List Char) : Option Nat :=
  [("/dev/stdin", 0), ("/dev/stdout", 1), ("/dev/stderr", 2), ("/dev/fd/0", 0), ("/dev/fd/1", 1),
    ("/dev/fd/2", 2)].lookup (Utility.textOf route)

/-- Why a file cannot be made. -/
def creationFlaw (f : Fault) : String :=
  match f with
  | .file .isDirectory _ => "Is a directory"
  | .file .tooLong _ => "File name too long"
  | _ => "Directory nonexistent"

/-- Makes a stream a copy of another one, or closes it. -/
def copyStream (m : Machine) (stream : Nat) (target : List Char) : Bool × Machine :=
  if target = ['-'] then (true, m.disconnect stream)
  else
    match (Utility.number? target).bind fun n => m.streams.lookup n.toNat with
    | some s => (true, m.connect stream s)
    | none =>
      if target.all Text.isDigit then (false, m.protest 2 (target ++ octetsOf ": Bad file descriptor"))
      else (false, m.abandon (octetsOf "Syntax error: Bad fd number"))

/-- Sends a stream to a file. Where files are to be kept, one that is there is an error, unless it is to
be replaced (`anyhow`). -/
def openSink (m : Machine) (stream : Nat) (atEnd anyhow : Bool) (target : List Char) : Bool × Machine :=
  if isNullDevice target then (true, m.connect stream .nothing)
  else
    match streamOfDevice? target with
    | some n => (true, m.connect stream ((m.streams.lookup n).getD .nothing))
    | none =>
      let p := m.placeOf target
      if m.has 'C' && !atEnd && !anyhow && (m.files.read p).toOption.isSome then
        (false, m.protest 2 (octetsOf "cannot create " ++ target ++ octetsOf ": File exists"))
      else
      match if atEnd then m.files.append p [] else m.files.write p [] with
      | .ok files =>
        let m := if atEnd then m else m.emptied p
        (true, { m with files }.connect stream (.file p))
      | .error f =>
        (false, m.protest 2 (octetsOf "cannot create " ++ target ++ octetsOf s!": {creationFlaw f}"))

/-- Reads a stream from a file. -/
def openSource (m : Machine) (stream : Nat) (target : List Char) : Bool × Machine :=
  if isNullDevice target then (true, m.connect stream .nothing)
  else
    match streamOfDevice? target with
    | some n => (true, m.connect stream ((m.streams.lookup n).getD .nothing))
    | none =>
      let p := m.placeOf target
      match m.files.read p with
      | .ok bytes => (true, m.connectFile stream p (octets bytes))
      | .error (.file .isDirectory _) => (true, m.connect stream .nothing)
      | .error f =>
        let flaw := match f with
          | .file .tooLong _ => "File name too long"
          | _ => "No such file"
        (false, m.protest 2 (octetsOf "cannot open " ++ target ++ octetsOf s!": {flaw}"))

/-- One redirection; it fails where a file cannot be opened. -/
def redirectOne (d : Deeper) (m : Machine) : Redirect → Bool × Machine
  | .document stream w =>
    let (text, after) := joined d m w
    if after.ending.isNone then (true, after.connectText (stream.getD 0) text)
    else (false, { after with ending := m.ending })
  | .route stream direction w =>
    let (target, m) := joined d m w
    if m.ending.isSome then (false, m)
    else
      match direction with
      | .copy => copyStream m (stream.getD 1) target
      | .write => openSink m (stream.getD 1) false false target
      | .replace => openSink m (stream.getD 1) false true target
      | .append => openSink m (stream.getD 1) true false target
      | .read => openSource m (stream.getD 0) target
      | .both =>
        match m.files.append (m.placeOf target) [] with
        | .ok files => openSource { m with files } (stream.getD 0) target
        | .error _ => openSource m (stream.getD 0) target

/-- All redirections, up to the first that fails. -/
def redirectAll (d : Deeper) (m : Machine) : List Redirect → Bool × Machine
  | [] => (true, m)
  | r :: rest =>
    match redirectOne d m r with
    | (true, m) => redirectAll d m rest
    | (false, m) => (false, m)

/-- Runs something with its streams redirected. -/
def redirected (d : Deeper) (rs : List Redirect) (m : Machine) (run : Machine → Machine) : Machine :=
  if rs.isEmpty then run m
  else
    match redirectAll d m rs with
    | (false, n) => { n with streams := m.streams }
    | (true, n) => { run n with streams := m.streams }

end Foreach.Shell

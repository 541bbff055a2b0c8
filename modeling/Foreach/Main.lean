import Foreach.Cli.Reach
import Foreach.Provider.Listed
import Foreach.Shell.Evaluate
import Std.Time.DateTime.Timestamp

/-!
The program. It reads the files that a command line looks at, runs the command line, writes the files
that have changed, and says what there is to say. Its commands for actions are run by the shell.
-/

namespace Foreach.Program

/-- The providers that come with the program: `builtin:Listed` makes items of what its spec lists. -/
def catalogue : Catalogue (FiniteProvider Nat) :=
  Catalogue.map Listed.Named.provider
    ⟨[("builtin", .offers [("Listed", .kind
      (Listed.kind "Listed" "Listed" "list" "Items given with --item" fun _ => none))])]⟩

/-- A variable of the environment, its name and its value being apart at the first `=`. -/
def variableOf (entry : List Char) : Option (String × String) :=
  match entry.dropWhile (· != '=') with
  | [] => none
  | _ :: value => some (String.ofList (entry.takeWhile (· != '=')), String.ofList value)

/-- The bytes of a file, if it can be read. -/
def bytesAt (place : Place) : IO (Option (List UInt8)) := do
  try
    return some (← IO.FS.readBinFile place.text).toList
  catch _ =>
    return none

def environment : IO (List (String × String)) := do
  let bytes ← bytesAt ["proc", "self", "environ"]
  return (Text.split (Char.ofNat 0) (Utf8.decodeLossy (bytes.getD []))).filterMap variableOf

/-- What is at a place, if it can be looked at. -/
def nodeAt (place : Place) : IO (Option Node) := do
  match ← bytesAt place with
  | some bytes => return some (.file bytes)
  | none =>
    let root ← IO.FS.realPath "/"
    if ← (root / place.text).isDir then return some .directory else return none

/-- A tree with what is at a place, if anything is. -/
def withNode (files : Files) (place : Place) : IO Files := do
  match ← nodeAt place with
  | none => return files
  | some node =>
    match files.makeDirectories place.dropLast with
    | .error _ => return files
    | .ok files => return files.set place node

/-- Writes a node that is not the same as before. -/
def writeNode (before : Files) (place : Place) (node : Node) : IO Unit := do
  if before.get? place ≠ some node then
    match node with
    | .directory => IO.FS.createDirAll place.text
    | .file bytes => IO.FS.writeBinFile place.text ⟨bytes.toArray⟩

/-- Makes the files on disk those of a tree, where it differs from the tree before. -/
def write (before after : Files) : IO Unit := do
  for (place, node) in after.nodes do
    writeNode before place node
  for (place, node) in before.nodes do
    if node ≠ .directory ∧ (after.get? place).isNone then
      IO.FS.removeFile place.text

/-- Says what a command has to say. -/
def say (reply : Cli.Reply) : IO Unit := do
  for notice in reply.notices do
    IO.eprintln notice.text
  for (failed, line) in reply.lines do
    if failed then IO.eprintln line else IO.println line
  for line in reply.ending.line?.toList do
    IO.eprintln line
  match reply.ending with
  | .misused => IO.eprintln "Usage: foreach @<iterable> <template> | iterable <command> [options]"
  | .failed f => IO.eprintln f.message
  | _ => pure ()

def run (args : List String) : IO Nat := do
  let root ← IO.currentDir
  let directory := (Route.ofText root.toString).place []
  let micros := (← Std.Time.Timestamp.now).toNanosecondsSinceUnixEpoch.val / 1000
  let random ← IO.getRandomBytes 6
  let freshRun := "batch-" ++ String.ofList (random.toList.flatMap fun b => Text.padded 16 2 b.toNat)
  let host : Cli.Host Nat (FiniteProvider Nat) := ⟨directory, ← environment, catalogue, Subtype.val,
    [], 0, Shell.system, .float (.ofRatio micros 1000000), freshRun⟩
  let moment := Timestamp.ofUnix? (micros / 1000000) (micros % 1000000).toNat
  let clock : Clock := ⟨fun _ => moment.getD .epoch, 0⟩
  let start := Files.empty.set directory .directory
  let files ← withNode start (directory ++ [".env"])
  let (places, everything) := Cli.reach host args files
  let mut files := files
  for place in places do
    files ← withNode files place
  if everything then
    for entry in ← root.readDir do
      files ← withNode files (directory ++ [entry.fileName])
  let (reply, world) := Cli.run host args ⟨files, clock⟩ (Cli.ends_of_finite Subtype.property args _)
  write files world.files
  say reply
  return reply.ending.status

end Foreach.Program

def main (args : List String) : IO UInt32 := do
  return UInt32.ofNat (← Foreach.Program.run args)

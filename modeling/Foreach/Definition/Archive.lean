import Foreach.Definition.Store
import Foreach.Files.Basic
import Foreach.Json.Printer
import Foreach.Json.Reader

/-!
The archive: the file that a store of definitions is kept in between runs.

A lock file beside the archive guards it, and appears on the first use. Loading takes the place of what
the store held. A file that is not there, is no JSON document or holds no mapping gives an empty store,
the second with a notice; a file that is not text cannot be loaded. Saving writes the whole document
anew, and a save that fails leaves the file as it was.
-/

namespace Foreach

/-- The file at a place, as an archive. -/
structure Archive where
  place : Place
  deriving DecidableEq, Repr

namespace Archive

def directory (a : Archive) : Place := a.place.dropLast

/-- The lock file, hidden beside the archive. -/
def lockPlace (a : Archive) : Place := a.directory ++ ["." ++ a.place.getLast?.getD "" ++ ".lock"]

/-- The tree of files with the lock in place, and the directory if need be. -/
def lock (a : Archive) (fs : Files) : Except Fault Files :=
  match fs.makeDirectories a.directory with
  | .error f => .error f
  | .ok fs => fs.append a.lockPlace []

/-- What the bytes of an archive say: a document, or nothing where they say nothing that is clear. -/
def documentOf (bytes : List UInt8) : Except Fault (Value × List Notice) :=
  match Utf8.decode bytes with
  | none => .error .undecodable
  | some cs =>
    match Json.read cs with
    | none => .ok (.null, [.unreadableFile])
    | some (.map es) => .ok (.map es, [])
    | some _ => .ok (.null, [])

/-- Puts what the bytes of an archive say in place of all that a store has. -/
def fillFrom (s : Store) (bytes : List UInt8) : Except Fault (List Notice) × Store :=
  match documentOf bytes with
  | .error f => (.error f, s)
  | .ok (document, notices) =>
    match s.deserialize document with
    | (.error f, s) => (.error f, s)
    | (.ok more, s) => (.ok (notices ++ more), s)

/-- Puts what the archive holds in place of all that a store has. -/
def fill (a : Archive) (s : Store) (fs : Files) : Except Fault (List Notice) × Store :=
  match fs.get? a.place with
  | none => s.deserialize .null
  | some _ =>
    match fs.read a.place with
    | .error f => (.error f, s)
    | .ok bytes => fillFrom s bytes

/-- Loads the archive into a store, and tells how many definitions there are then. -/
def load (a : Archive) (s : Store) (fs : Files) : Except Fault (Nat × List Notice) × Store × Files :=
  match a.lock fs with
  | .error f => (.error f, s, fs)
  | .ok fs =>
    match a.fill s fs with
    | (.error f, s) => (.error f, s, fs)
    | (.ok notices, s) => (.ok (s.size, notices), s, fs)

/-- The text of an archive that holds this document. -/
def text? (document : Value) : Option (List Char) :=
  (Json.print .indented 0 document).map (· ++ ['\n'])

/-- Saves a store to the archive. -/
def save (a : Archive) (s : Store) (fs : Files) : Except Fault Unit × Files :=
  match s.serialize with
  | .error f => (.error f, fs)
  | .ok document =>
    match text? document with
    | none => (.error (.mismatch "keys must be str, int, float, bool or None"), fs)
    | some text =>
      match a.lock fs with
      | .error f => (.error f, fs)
      | .ok fs =>
        match (Files.bytesOf text).bind (fs.write a.place) with
        | .error f => (.error f, fs)
        | .ok fs => (.ok (), fs)

end Archive
end Foreach

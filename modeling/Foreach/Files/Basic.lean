import Foreach.Fault
import Foreach.Files.Route
import Foreach.Text.Utf8

/-!
A tree of files, and the operations on it that can fail.

The root is a directory and is always there. An operation that fails changes nothing.
-/

namespace Foreach

/-- What is at a place: a file with its bytes, or a directory. -/
inductive Node where
  | file (bytes : List UInt8)
  | directory
  deriving DecidableEq

/-- Files and directories by place. -/
structure Files where
  nodes : List (Place × Node)

namespace Files

def empty : Files := ⟨[]⟩

def get? (fs : Files) (p : Place) : Option Node :=
  if p = [] then some .directory else fs.nodes.lookup p

/-- The nodes with one put in place. -/
def put : List (Place × Node) → Place → Node → List (Place × Node)
  | [], p, n => [(p, n)]
  | (q, m) :: rest, p, n => if q = p then (p, n) :: rest else (q, m) :: put rest p n

def set (fs : Files) (p : Place) (n : Node) : Files := ⟨put fs.nodes p n⟩

def isDirectory (fs : Files) (p : Place) : Bool := fs.get? p = some .directory

def isFile (fs : Files) (p : Place) : Bool :=
  match fs.get? p with
  | some (.file _) => true
  | _ => false

def fault (cause : FileFault) (p : Place) : Fault := .file cause p.text

/-- The most bytes that a name may have. -/
def longestName : Nat := 255

/-- The first thing on a way that keeps it from leading anywhere, from a place on. -/
def obstacle? (fs : Files) : Place → List String → Option FileFault
  | _, [] => none
  | reached, name :: rest =>
    match fs.get? reached with
    | some (.file _) => some .notDirectory
    | none => some .missing
    | some .directory =>
      if longestName < name.utf8ByteSize then some .tooLong else obstacle? fs (reached ++ [name]) rest

/-- The failure to find something at a place. -/
def absence (fs : Files) (p : Place) : Fault := fault ((fs.obstacle? [] p).getD .missing) p

/-- One part further on a way. From anything but a directory two dots lead nowhere: they stay, as the
name of something that is not there. -/
def descend (fs : Files) (place : Place) (part : String) : Place :=
  if part = ".." ∧ fs.isDirectory place then place.dropLast else place ++ [part]

/-- Where a route leads from a directory, every part of it being followed. -/
def locate (fs : Files) (r : Route) (directory : Place) : Place :=
  r.parts.foldl fs.descend (r.start directory)

/-- Makes the directories on the way from a place. -/
def makeWay (fs : Files) : Place → List String → Except Fault Files
  | _, [] => .ok fs
  | place, part :: rest =>
    let next := fs.descend place part
    match fs.get? next with
    | some .directory => makeWay fs next rest
    | some (.file _) => .error (fault (if rest.isEmpty then .occupied else .notDirectory) next)
    | none =>
      match fs.obstacle? [] next with
      | some cause => .error (fault cause next)
      | none => makeWay (fs.set next .directory) next rest

/-- Makes a directory and those above it. -/
def makeDirectories (fs : Files) (p : Place) : Except Fault Files := fs.makeWay [] p

/-- The bytes of a file. -/
def read (fs : Files) (p : Place) : Except Fault (List UInt8) :=
  match fs.get? p with
  | some (.file bytes) => .ok bytes
  | some .directory => .error (fault .isDirectory p)
  | none => .error (fs.absence p)

/-- Gives a file new bytes; the directory must be there. -/
def write (fs : Files) (p : Place) (bytes : List UInt8) : Except Fault Files :=
  if fs.isDirectory p then .error (fault .isDirectory p)
  else
    match fs.obstacle? [] p with
    | none => .ok (fs.set p (.file bytes))
    | some cause => .error (fault cause p)

/-- Puts bytes at the end of a file, which is made if it is not there. -/
def append (fs : Files) (p : Place) (bytes : List UInt8) : Except Fault Files :=
  match fs.get? p with
  | some (.file old) => fs.write p (old ++ bytes)
  | _ => fs.write p bytes

/-- The files below a directory: their routes from there, and their bytes. -/
def below (fs : Files) (directory : Place) : List (Place × List UInt8) :=
  fs.nodes.filterMap fun (p, n) =>
    match n with
    | .file bytes =>
      if directory.isPrefixOf p then some (p.drop directory.length, bytes) else none
    | .directory => none

def ofText (s : String) : List UInt8 := Utf8.encode s.toList

/-- The bytes of a text that is to be written. -/
def bytesOf (cs : List Char) : Except Fault (List UInt8) := (Utf8.encode? cs).mapError .unencodable

end Files
end Foreach

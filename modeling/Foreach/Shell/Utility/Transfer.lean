import Foreach.Shell.Utility.Paths

/-!
Giving files and directories other names, and copying them.
-/

namespace Foreach.Shell.Utility

/-- The files with what is at a place, and all below it, also at another place. -/
def duplicated (files : Files) (origin target : Place) : Files :=
  (files.nodes.filter fun (q, _) => origin.isPrefixOf q).foldl
    (fun fs (q, node) => fs.set (target ++ q.drop origin.length) node) files

/-- The places that can be run with those below a place also below another. -/
def alsoRunnable (places : List Place) (origin target : Place) : List Place :=
  places ++ (places.filter origin.isPrefixOf).map fun q => target ++ q.drop origin.length

/-- Why nothing new can be made at a route. -/
def hindrance? (m : Machine) (route : List Char) (isDirectory : Bool) : Option String :=
  match m.files.obstacle? [] (m.placeOf route) with
  | some .notDirectory => some "Not a directory"
  | some .tooLong => some "File name too long"
  | some _ => some "No such file or directory"
  | none => if route.getLast? = some '/' && !isDirectory then some "Not a directory" else none

/-- Says what has been done, if that is asked for. -/
def reported (g : Given) (what : String) (source target : List Char) (m : Machine) : Machine :=
  if g.has 'v' then m.say (octetsOf what ++ quoted source ++ octetsOf " -> " ++ quoted target ++ ['\n']) else m

/-- Gives one thing another name. -/
def moveOne (g : Given) (source target : List Char) (m : Machine) : Machine :=
  let refused (what : List Char) : Machine := m.refuse 1 (octetsOf "mv: " ++ what)
  match found m source with
  | .error what => refused (octetsOf "cannot stat " ++ quoted source ++ octetsOf s!": {what}")
  | .ok (origin, node) =>
    let p := m.placeOf target
    let isDirectory := decide (node = Node.directory)
    let moved : Machine :=
      let files := (duplicated (without m.files p) origin p)
      reported g "renamed " source target { m with
        files := without files origin, executable := alsoRunnable m.executable origin p }
    let intoItself : Machine :=
      refused (octetsOf "cannot move " ++ quoted source ++ octetsOf " to a subdirectory of itself, " ++ quoted target)
    if p = origin then
      refused (quoted source ++ octetsOf " and " ++ quoted target ++ octetsOf " are the same file")
    else
      match m.files.get? p with
      | some there =>
        let isOverDirectory := decide (there = Node.directory)
        if isOverDirectory && !isDirectory then
          refused (octetsOf "cannot overwrite directory " ++ quoted target ++ octetsOf " with non-directory")
        else if isDirectory && !isOverDirectory then
          refused (octetsOf "cannot overwrite non-directory " ++ quoted target ++ octetsOf " with directory "
            ++ quoted source)
        else if g.has 'n' then m.finish 1 |>.complain (octetsOf "mv: not replacing " ++ quoted target ++ ['\n'])
        else if origin.isPrefixOf p then intoItself
        else if isOverDirectory && !(namesIn m.files p).isEmpty then
          refused (octetsOf "cannot overwrite " ++ quoted target ++ octetsOf ": Directory not empty")
        else moved
      | none =>
        if origin.isPrefixOf p then intoItself
        else
          match hindrance? m target isDirectory with
          | some what =>
            refused (octetsOf "cannot move " ++ quoted source ++ octetsOf " to " ++ quoted target
              ++ octetsOf s!": {what}")
          | none => moved

/-- Copies one thing; what is in a directory is copied into one that is there; `fuel` bounds the depth. -/
def copyOne (g : Given) : Nat → List Char → List Char → Machine → Machine
  | 0, _, _, m => m
  | fuel + 1, source, target, m =>
    let refused (what : List Char) : Machine := m.refuse 1 (octetsOf "cp: " ++ what)
    match found m source with
    | .error what => refused (octetsOf "cannot stat " ++ quoted source ++ octetsOf s!": {what}")
    | .ok (origin, .file bytes) =>
      let p := m.placeOf target
      if p = origin then
        refused (quoted source ++ octetsOf " and " ++ quoted target ++ octetsOf " are the same file")
      else if m.files.isDirectory p then
        refused (octetsOf "cannot overwrite directory " ++ quoted target ++ octetsOf " with non-directory")
      else if g.has 'n' && m.files.isFile p then m
      else
        match hindrance? m target false with
        | some what =>
          refused (octetsOf "cannot create regular file " ++ quoted target ++ octetsOf s!": {what}")
        | none =>
          reported g "" source target { m with
            files := m.files.set p (.file bytes), executable := alsoRunnable m.executable origin p }
    | .ok (origin, .directory) =>
      let p := m.placeOf target
      if !g.hasAny "rRa" then refused (octetsOf "-r not specified; omitting directory " ++ quoted source)
      else if m.files.isFile p then
        refused (octetsOf "cannot overwrite non-directory " ++ quoted target ++ octetsOf " with directory "
          ++ quoted source)
      else
        match if m.files.isDirectory p then none else hindrance? m target true with
        | some what => refused (octetsOf "cannot create directory " ++ quoted target ++ octetsOf s!": {what}")
        | none =>
          let made := if m.files.isDirectory p then m
            else reported g "" source target { m with files := m.files.set p .directory }
          let names := (namesIn m.files origin).map octetsOf
          let copied := names.foldl (fun n name =>
            if n.placeOf (inside source name) = p then n
            else copyOne g fuel (inside source name) (inside target name) n) made
          if origin.isPrefixOf p then
            copied.refuse 1 (octetsOf "cp: cannot copy a directory, " ++ quoted source ++ octetsOf ", into itself, "
              ++ quoted target)
          else copied

/-- A program that brings things to a place: to a new name, or into a directory. -/
def transfer (who : String) (a : Accepted) (one : Given → List Char → List Char → Machine → Machine) :
    Utility :=
  withGiven who 1 a fun g m =>
    let words := g.words ++ (g.value? 't').toList
    match words with
    | [] => misused who 1 (octetsOf "missing file operand") m
    | [only] => misused who 1 (octetsOf "missing destination file operand after " ++ quoted only) m
    | words =>
      let target := words.getLast?.getD []
      let sources := words.dropLast
      let into := !g.has 'T' && m.files.isDirectory (m.placeOf target)
      let plain := sources.length = 1 && !g.has 't'
      match if into || plain then none else (found m target).toOption with
      | some _ => m.refuse 1 (octetsOf s!"{who}: target " ++ quoted target ++ octetsOf ": Not a directory")
      | none =>
        if !into && !plain then
          m.refuse 1 (octetsOf s!"{who}: target " ++ quoted target ++ octetsOf ": No such file or directory")
        else
          forEach sources (fun source m =>
            one g source (if into then inside target (lastPart source) else target) m) m

def move : Utility :=
  let names := [("force", 'f'), ("no-clobber", 'n'), ("verbose", 'v'), ("target-directory", 't'),
    ("no-target-directory", 'T'), ("interactive", 'i'), ("update", 'u')]
  transfer "mv" (accepting "finvTt:ub" names) moveOne

def copy : Utility :=
  let names := [("recursive", 'r'), ("archive", 'a'), ("force", 'f'), ("no-clobber", 'n'), ("verbose", 'v'),
    ("target-directory", 't'), ("no-target-directory", 'T'), ("interactive", 'i'), ("update", 'u')]
  let a := accepting "rRafinpvTt:udPHLb" names
  transfer "cp" a fun g source target m => copyOne g (m.files.nodes.length + 2) source target m

end Foreach.Shell.Utility

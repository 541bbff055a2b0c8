import Foreach.Shell.Glob
import Foreach.Shell.Utility.Option
import Foreach.Text.Blank

/-!
Files and directories: making, listing and removing them, and the parts of routes to them.
-/

namespace Foreach.Shell.Utility

def quoted (a : List Char) : List Char := '\'' :: a ++ ['\'']

/-- A route without slashes at its end. -/
def trimmed (route : List Char) : List Char :=
  let cs := Text.dropEndWhile (· = '/') route
  if cs.isEmpty && !route.isEmpty then ['/'] else cs

/-- The last part of a route. -/
def lastPart (route : List Char) : List Char :=
  let route := trimmed route
  if route = ['/'] then route else (route.reverse.takeWhile (· != '/')).reverse

/-- The route to a name in a directory. -/
def inside (directory name : List Char) : List Char :=
  if directory.getLast? = some '/' then directory ++ name else directory ++ '/' :: name

/-- Does something for each of some words, beginning with success. -/
def forEach (words : Arguments) (run : List Char → Machine → Machine) (m : Machine) : Machine :=
  words.foldl (fun m a => run a m) (m.finish 0)

/-- The names in a directory, in order. -/
def namesIn (files : Files) (p : Place) : List String :=
  (files.nodes.filterMap fun (q, _) =>
    if q ≠ [] ∧ q.dropLast = p then q.getLast? else none).mergeSort fun a b => decide (a ≤ b)

/-- The files without what is at a place or below it. -/
def without (files : Files) (p : Place) : Files :=
  ⟨files.nodes.filter fun (q, _) => !p.isPrefixOf q⟩

def tee : Utility :=
  withGiven "tee" 1 (accepting "aip" [("append", 'a'), ("ignore-interrupts", 'i')]) fun g m =>
    let (cs, m) := m.takeInput
    let bytes := ofOctets cs
    forEach g.words (fun a m =>
      if a = octetsOf "/dev/null" then m
      else
        match if g.has 'a' then m.files.append (m.placeOf a) bytes else m.files.write (m.placeOf a) bytes with
        | .ok files => { m with files }
        | .error f => m.refuse 1 (complaint "tee" (shownName false a) (absence f))) (m.say cs)

def pwd : Utility := fun args m =>
  match args.find? fun a => isOption a ∧ a ≠ ['-', 'P'] ∧ a ≠ ['-', 'L'] with
  | some a => m.protest 2 (octetsOf "Illegal option -" ++ (a.drop 1).take 1)
  | none => m.answer (octetsOf m.directory.text ++ ['\n'])

/-! ### Making -/

/-- The route up to each of its parts. -/
def waysTo (route : List Char) : Arguments :=
  let parts := (Text.split '/' (trimmed route)).filter (!·.isEmpty)
  let front := if route.head? = some '/' then ['/'] else []
  (List.range parts.length).map fun i => front ++ joinWith ['/'] (parts.take (i + 1))

/-- Makes one directory. -/
def makeOne (speaks anyhow : Bool) (a : List Char) (m : Machine) : Machine :=
  let p := m.placeOf a
  let refused (what : String) : Machine :=
    m.refuse 1 (octetsOf "mkdir: cannot create directory ‘" ++ a ++ octetsOf s!"’: {what}")
  match m.files.get? p with
  | some .directory => if anyhow then m else refused "File exists"
  | some (.file _) => refused "File exists"
  | none =>
    match if a.isEmpty then some .missing else m.files.obstacle? [] p with
    | some .notDirectory => refused "Not a directory"
    | some .tooLong => refused "File name too long"
    | some _ => refused "No such file or directory"
    | none =>
      let m := { m with files := m.files.set p .directory }
      if speaks then m.say (octetsOf "mkdir: created directory " ++ quoted a ++ ['\n']) else m

def makeDirectory : Utility :=
  let names := [("parents", 'p'), ("verbose", 'v'), ("mode", 'm')]
  withGiven "mkdir" 1 (accepting "pvm:Z" names) fun g m =>
    if g.words.isEmpty then misused "mkdir" 1 (octetsOf "missing operand") m
    else
      forEach g.words (fun a m =>
        if g.has 'p' then
          let last := (waysTo a).getLast?
          (waysTo a).foldl (fun m way =>
            if m.status ≠ 0 && (m.files.get? (m.placeOf way)).isNone then m
            else if some way ≠ last && m.files.isFile (m.placeOf way) then
              m.refuse 1 (octetsOf "mkdir: cannot create directory ‘" ++ way ++ octetsOf "’: Not a directory")
            else makeOne (g.has 'v') true way m) m
        else makeOne (g.has 'v') false a m) m

def touch : Utility :=
  let names := [("no-create", 'c'), ("date", 'd'), ("reference", 'r')]
  withGiven "touch" 1 (accepting "acd:fhmr:t:" names) fun g m =>
    if g.words.isEmpty then misused "touch" 1 (octetsOf "missing file operand") m
    else
      forEach g.words (fun a m =>
        let refused (what : String) : Machine :=
          m.refuse 1 (octetsOf "touch: cannot touch " ++ quoted a ++ octetsOf s!": {what}")
        match found m a with
        | .ok _ => m
        | .error what =>
          if g.has 'c' then m
          else if a.getLast? = some '/' then refused what
          else
            match m.files.write (m.placeOf a) [] with
            | .ok files => if a.isEmpty then refused what else { m with files }
            | .error _ => refused what) m

/-- Cuts or fills a file to a length. -/
def truncate : Utility :=
  withGiven "truncate" 1 (accepting "cs:" [("size", 's'), ("no-create", 'c')]) fun g m =>
    let size := Text.numeral ((g.value? 's').getD [])
    if g.words.isEmpty then misused "truncate" 1 (octetsOf "missing file operand") m
    else
      forEach g.words (fun a m =>
        let old := (m.files.read (m.placeOf a)).toOption.getD []
        match m.files.write (m.placeOf a) (old.take size ++ List.replicate (size - old.length) 0) with
        | .ok files => { m with files }
        | .error f =>
          m.refuse 1 (octetsOf "truncate: cannot open " ++ quoted a ++ octetsOf s!" for writing: {absence f}")) m

/-! ### Permissions -/

/-- Whether a file can be run after its permissions are changed by a clause such as `u+x`; none if it is no
clause. -/
def runnableAfter (clause : List Char) (before : Bool) : Option Bool :=
  match clause.dropWhile "ugoa".toList.contains with
  | sign :: letters =>
    if !letters.all "rwxXst".toList.contains then none
    else
      let runs := letters.contains 'x' || (letters.contains 'X' && before)
      if sign = '+' then some (before || runs)
      else if sign = '-' then some (before && !runs)
      else if sign = '=' then some runs
      else none
  | [] => none

/-- Whether a file can be run after its permissions are changed as a mode speaks. -/
def runnable? (mode : List Char) (before : Bool) : Option Bool :=
  if !mode.isEmpty && mode.all Text.isDigit then
    let digits := mode.map fun c => c.toNat - '0'.toNat
    if digits.all (· < 8) && digits.length ≤ 4 then some (digits.any (· % 2 = 1)) else none
  else (Text.split ',' mode).foldlM (fun before clause => runnableAfter clause before) before

def changeMode : Utility := fun args m =>
  let words := args.filter fun a => !(["-R", "-v", "-f", "-c", "--"].contains (textOf a))
  match words with
  | [] => misused "chmod" 1 (octetsOf "missing operand") m
  | [mode] => misused "chmod" 1 (octetsOf "missing operand after ‘" ++ mode ++ octetsOf "’") m
  | mode :: routes =>
    if (runnable? mode false).isNone then
      misused "chmod" 1 (octetsOf "invalid mode: ‘" ++ mode ++ octetsOf "’") m
    else
      forEach routes (fun a m =>
        match found m a with
        | .error what => m.refuse 1 (octetsOf "chmod: cannot access " ++ quoted a ++ octetsOf s!": {what}")
        | .ok (p, _) =>
          let others := m.executable.filter (· ≠ p)
          let runs := (runnable? mode (m.executable.contains p)).getD false
          { m with executable := if runs then p :: others else others }) m

/-! ### Listing -/

/-- How a listing shows names. -/
structure Listing where
  hidden : Bool
  dots : Bool
  backwards : Bool
  deep : Bool
  slashes : Bool
  stars : Bool

/-- The names of a listing, each in its place, as lines. -/
def Listing.rows (s : Listing) (m : Machine) (names : List (Place × List Char)) : List Char :=
  let marked := names.map fun (p, name) =>
    if s.slashes && m.files.isDirectory p then name ++ ['/']
    else if s.stars && m.executable.contains p then name ++ ['*']
    else name
  unlines (if s.backwards then marked.reverse else marked)

/-- The names in a directory as a listing has them. -/
def Listing.names (s : Listing) (m : Machine) (p : Place) : List (Place × List Char) :=
  let kept := (namesIn m.files p).filter fun n => s.hidden || !n.startsWith "."
  (if s.dots then [(p, ['.']), (p.dropLast, ['.', '.'])] else [])
    ++ kept.map fun n => (p ++ [n], octetsOf n)

/-- The directories below one, each in front of its own, with it; `fuel` bounds the depth. -/
def Listing.directories (s : Listing) (m : Machine) : Nat → List Char × Place → List (List Char × Place)
  | 0, d => [d]
  | fuel + 1, (route, p) =>
    let names : List (Place × List Char) := Listing.names { s with dots := false } m p
    let below := names.filter fun (q, _) => m.files.isDirectory q
    let below := if s.backwards then below.reverse else below
    (route, p) :: below.flatMap fun (q, name) => Listing.directories s m fuel (inside route name, q)

def ls : Utility :=
  let names := [("all", 'a'), ("almost-all", 'A'), ("directory", 'd'), ("reverse", 'r'), ("recursive", 'R'),
    ("classify", 'F')]
  withGiven "ls" 2 (accepting "aA1dFprRlCtSxhiskgnoqQUvXGBb" names) fun g m =>
    let s : Listing := ⟨g.hasAny "aA", g.has 'a', g.has 'r', g.has 'R', g.hasAny "pF", g.has 'F'⟩
    let routes := if g.words.isEmpty then [['.']] else g.words
    let sorted := routes.mergeSort fun a b => decide (textOf a ≤ textOf b)
    let m := forEach routes (fun a m =>
      match found m a with
      | .ok _ => m
      | .error what => m.refuse 2 (octetsOf "ls: cannot access " ++ quoted a ++ octetsOf s!": {what}")) m
    let here := sorted.filterMap fun a => ((found m a).toOption).map fun (p, node) => (a, p, node)
    let isListed := fun (n : Node) => n = Node.directory && !g.has 'd'
    let single := here.filterMap fun (a, p, node) => if isListed node then none else some (p, a)
    let whole := here.filterMap fun (a, p, node) => if isListed node then some (a, p) else none
    let whole := if s.backwards then whole.reverse else whole
    let all := if s.deep then whole.flatMap (s.directories m (m.files.nodes.length + 1)) else whole
    let titled := 1 < routes.length || s.deep
    let blocks := all.map fun (a, p) =>
      (if titled then a ++ [':', '\n'] else []) ++ s.rows m (s.names m p)
    let first := s.rows m single
    m.say (joinWith ['\n'] (if single.isEmpty then blocks else first :: blocks))

/-! ### Removing -/

/-- Removes one thing. -/
def removeOne (g : Given) (a : List Char) (m : Machine) : Machine :=
  let whole := g.hasAny "rR"
  let refused (what : String) : Machine :=
    m.refuse 1 (octetsOf "rm: cannot remove " ++ quoted a ++ octetsOf s!": {what}")
  let removed (p : Place) (what : String) : Machine :=
    let m := { m with files := without m.files p }
    if g.has 'v' then m.say (octetsOf s!"removed {what}" ++ quoted a ++ ['\n']) else m
  match found m a with
  | .error what =>
    if g.has 'f' && (what = "No such file or directory" || what = "Not a directory") then m else refused what
  | .ok (p, .file _) => removed p ""
  | .ok (p, .directory) =>
    let name := lastPart a
    if whole && (name = ['.'] || name = ['.', '.']) then
      m.refuse 1 (octetsOf "rm: refusing to remove '.' or '..' directory: skipping " ++ quoted a)
    else if whole && p = [] then
      m.refuse 1 (octetsOf ("rm: it is dangerous to operate recursively on '/'\n"
        ++ "rm: use --no-preserve-root to override this failsafe"))
    else if whole then removed p "directory "
    else if !g.has 'd' then refused "Is a directory"
    else if !(namesIn m.files p).isEmpty then refused "Directory not empty"
    else removed p "directory "

def remove : Utility :=
  let names := [("recursive", 'r'), ("force", 'f'), ("dir", 'd'), ("verbose", 'v')]
  withGiven "rm" 1 (accepting "rRfdviI" names) fun g m =>
    if g.words.isEmpty then
      if g.has 'f' then m.finish 0 else misused "rm" 1 (octetsOf "missing operand") m
    else forEach g.words (removeOne g) m

/-- Removes directories that hold nothing. -/
def removeDirectory : Utility :=
  withGiven "rmdir" 1 (accepting "pv" [("parents", 'p'), ("verbose", 'v')]) fun g m =>
    if g.words.isEmpty then misused "rmdir" 1 (octetsOf "missing operand") m
    else
      let one (a : List Char) (m : Machine) : Machine :=
        let m := if g.has 'v' then m.say (octetsOf "rmdir: removing directory, " ++ quoted a ++ ['\n']) else m
        let refused (what : String) : Machine :=
          m.refuse 1 (octetsOf "rmdir: failed to remove " ++ quoted a ++ octetsOf s!": {what}")
        match found m a with
        | .error what => refused what
        | .ok (_, .file _) => refused "Not a directory"
        | .ok (p, .directory) =>
          if !(namesIn m.files p).isEmpty then refused "Directory not empty"
          else { m with files := without m.files p }
      forEach g.words (fun a m =>
        (if g.has 'p' then (waysTo a).reverse else [a]).foldl (fun (going, m) way =>
          if going then (let n := one way m; (decide ((m.files.get? (m.placeOf way)).isSome
            ∧ (n.files.get? (n.placeOf way)).isNone), n))
          else (going, m)) (true, m) |>.2) m

/-! ### Routes -/

def basename : Utility :=
  withGiven "basename" 1 (accepting "as:z" [("multiple", 'a'), ("suffix", 's')]) fun g m =>
    let shown (ending route : List Char) : List Char :=
      let name := lastPart route
      let cut := name.take (name.length - ending.length)
      (if cut ++ ending = name ∧ cut ≠ [] then cut else name) ++ ['\n']
    if g.hasAny "as" then m.answer (g.words.flatMap (shown ((g.value? 's').getD [])))
    else
      match g.words with
      | [] => misused "basename" 1 (octetsOf "missing operand") m
      | [route] => m.answer (shown [] route)
      | [route, ending] => m.answer (shown ending route)
      | _ :: _ :: third :: _ => misused "basename" 1 (octetsOf "extra operand ‘" ++ third ++ octetsOf "’") m

def dirname : Utility :=
  withGiven "dirname" 1 (accepting "z" []) fun g m =>
    if g.words.isEmpty then misused "dirname" 1 (octetsOf "missing operand") m
    else
      m.answer (unlines (g.words.map fun route =>
        let head := ((trimmed route).reverse.dropWhile (· != '/')).reverse
        if head.isEmpty then ['.'] else trimmed head))

/-! ### Searching -/

/-- What `find` asks of a name. -/
inductive Quest where
  | name (pattern : List Char) (folded : Bool)
  | path (pattern : List Char)
  | file
  | directory
  | vacant
  | not (q : Quest)

def Quest.holds (m : Machine) (route : List Char) (p : Place) : Quest → Bool
  | .name pattern folded =>
    let key (cs : List Char) := if folded then cs.map Char.toLower else cs
    Glob.fits (Glob.ofChars pattern.length ((key pattern).map (false, ·))) (key (lastPart route))
  | .path pattern => Glob.fits (Glob.ofChars pattern.length (pattern.map (false, ·))) route
  | .file => m.files.isFile p
  | .directory => m.files.isDirectory p
  | .vacant =>
    match m.files.read p with
    | .ok bytes => bytes.isEmpty
    | .error _ => (namesIn m.files p).isEmpty
  | .not q => !q.holds m route p

/-- What `find` is asked: how deep to go, from where on to tell, what to ask, and whether to remove. -/
structure Search where
  deepest : Option Nat
  highest : Nat
  quests : List Quest
  removes : Bool

/-- The questions among the words of `find`, or the word that is none. -/
def readSearch (s : Search) : Arguments → Except (List Char) Search
  | [] => .ok s
  | [a] => if a = octetsOf "-print" then .ok s else single s a []
  | a :: b :: rest =>
    let ask (q : Quest) : Except (List Char) Search := readSearch { s with quests := s.quests ++ [q] } rest
    match textOf a with
    | "-name" => ask (.name b false)
    | "-iname" => ask (.name b true)
    | "-path" => ask (.path b)
    | "-type" => ask (if b = ['d'] then .directory else .file)
    | "-maxdepth" => readSearch { s with deepest := some (Text.numeral b) } rest
    | "-mindepth" => readSearch { s with highest := Text.numeral b } rest
    | "-print" => readSearch s (b :: rest)
    | _ => single s a (b :: rest)
where
  single (s : Search) (a : List Char) (rest : Arguments) : Except (List Char) Search :=
    if a = octetsOf "-empty" then
      if rest.isEmpty then .ok { s with quests := s.quests ++ [.vacant] } else .error a
    else if a = octetsOf "-delete" then
      if rest.isEmpty then .ok { s with removes := true } else .error a
    else .error a

/-- What is at a route and below it, everything behind the directory that it is in. -/
def walk (m : Machine) : Nat → Nat → List Char × Place → List (Nat × List Char × Place)
  | 0, _, _ => []
  | fuel + 1, depth, (route, p) =>
    (depth, route, p) :: (namesIn m.files p).flatMap fun n =>
      walk m fuel (depth + 1) (inside route (octetsOf n), p ++ [n])

def find : Utility := fun args m =>
  let routes := args.takeWhile fun a => a.head? ≠ some '-' ∧ a ≠ ['!'] ∧ a ≠ ['(']
  match readSearch ⟨none, 0, [], false⟩ (args.drop routes.length) with
  | .error a => m.refuse 1 (octetsOf "find: unknown predicate `" ++ a ++ ['\''])
  | .ok s =>
    forEach (if routes.isEmpty then [['.']] else routes) (fun route m =>
      match found m route with
      | .error what => m.refuse 1 (octetsOf "find: ‘" ++ route ++ octetsOf s!"’: {what}")
      | .ok (p, _) =>
        let hits := (walk m (m.files.nodes.length + 2) 0 (route, p)).filter fun (depth, route, p) =>
          s.highest ≤ depth && s.deepest.all (depth ≤ ·) && s.quests.all (·.holds m route p)
        if s.removes then { m with files := hits.foldl (fun fs (_, _, p) => without fs p) m.files }
        else m.say (unlines (hits.map fun (_, route, _) => route))) m

end Foreach.Shell.Utility

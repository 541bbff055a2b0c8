import Foreach.Shell.Utility.Lines
import Foreach.Shell.Utility.Paths

/-!
Finding lines: `grep`.
-/

namespace Foreach.Shell.Utility

/-- Every match in a line that is not empty, in order. -/
def matchesIn (r : Regex) (ignoreCase : Bool) : Nat → Nat → Option Char → List Char → List (List Char)
  | 0, _, _, _ => []
  | fuel + 1, seen, prior, cs =>
    match r.findFrom ignoreCase seen prior cs with
    | none => []
    | some (_, [], t) =>
      match t.rest with
      | [] => []
      | c :: rest => matchesIn r ignoreCase fuel (t.seen + 1) (some c) rest
    | some (_, found, t) => found :: matchesIn r ignoreCase fuel t.seen t.prior t.rest

/-- A pattern with the letters for digits spelled out. -/
def spelledOut : List Char → List Char
  | '\\' :: 'd' :: rest => "[0-9]".toList ++ spelledOut rest
  | '\\' :: 'D' :: rest => "[^0-9]".toList ++ spelledOut rest
  | '\\' :: c :: rest => '\\' :: c :: spelledOut rest
  | c :: rest => c :: spelledOut rest
  | [] => []

/-- What is looked for: the pattern of several lines, one for each alternative. -/
def patternOf (g : Given) (text : List Char) : Except Regex.Defect Regex := do
  let alternatives ← (Text.split '\n' text).mapM fun l => do
    let l := if g.has 'P' then spelledOut l else l
    let r ← if g.has 'F' then .ok (Regex.ofFixed (wide l))
      else (Regex.read ⟨g.hasAny "EP", false⟩ (wide l)).map (·.1)
    return if g.has 'x' then r.whole else if g.has 'w' then r.wholeWord else r
  return alternatives.tail.foldl Regex.either (alternatives.headD .nothing)

/-- A pattern that names a class of characters but is no set. -/
def isBareClass (text : List Char) : Bool :=
  text.take 2 = ['[', ':'] && text.drop (text.length - 2) = [':', ']'] && 4 < text.length

/-- Signs that have nothing in front of them to be repeated. -/
def strayRepetitions (cs : List Char) : List Char :=
  match cs with
  | c :: '(' :: d :: rest => if c ≠ '\\' ∧ "*+?".toList.contains d then d :: strayRepetitions rest
    else strayRepetitions ('(' :: d :: rest)
  | c :: '|' :: d :: rest => if c ≠ '\\' ∧ "*+?".toList.contains d then d :: strayRepetitions rest
    else strayRepetitions ('|' :: d :: rest)
  | _ :: rest => strayRepetitions rest
  | [] => []
termination_by cs.length

/-- The warnings that a pattern gives rise to. -/
def patternWarnings (g : Given) (text : List Char) : List Char :=
  if g.has 'E' then
    let first := (text.take 1).filter "*+?".toList.contains
    (first ++ strayRepetitions text).flatMap fun c =>
      octetsOf "grep: warning: " ++ c :: octetsOf " at start of expression\n"
  else []

/-- Lines that are shown: each with its number and whether it was looked for. -/
structure ShownLine where
  number : Nat
  text : List Char
  isHit : Bool
  /-- How many bytes are before it. -/
  place : Nat

/-- The lines of a text, those that are looked for being marked; only `most` of them are. -/
def markedLines (wanted : List Char → Bool) : Option Nat → Nat → Nat → List (List Char) → List ShownLine
  | _, _, _, [] => []
  | most, number, place, l :: ls =>
    let hit := most ≠ some 0 && wanted l
    ⟨number, l, hit, place⟩
      :: markedLines wanted (if hit then most.map (· - 1) else most) (number + 1) (place + l.length + 1) ls

/-- The lines that are shown with so many before and after each that is looked for; behind the last one that
may be found only those after it are. -/
def withContext (before after : Nat) (ls : List ShownLine) : List ShownLine :=
  let hits := (ls.filter (·.isHit)).map (·.number)
  ls.filter fun l => hits.any fun n => n ≤ l.number + before && l.number ≤ n + after

/-- What is shown in front of a line, the sign telling whether it was looked for. -/
def lineMark (g : Given) (name : List Char) (l : ShownLine) : List Char :=
  let sign := if l.isHit then ':' else '-'
  (if name.isEmpty then [] else name ++ [sign])
    ++ (if g.has 'n' then shown l.number ++ [sign] else [])
    ++ (if g.has 'b' then shown l.place ++ [sign] else [])

/-- Lines with their marks, groups of them being apart if there is context. -/
def showLines (g : Given) (name : List Char) (apart : Bool) : Option Nat → List ShownLine → List Char
  | _, [] => []
  | last, l :: ls =>
    let gap := if apart && last.any (· + 1 < l.number) then octetsOf "--\n" else []
    gap ++ lineMark g name l ++ l.text ++ '\n' :: showLines g name apart (some l.number) ls

/-- What `grep` shows of a text, and whether there was anything. -/
def searchIn (g : Given) (r : Regex) (before after : Nat) (apart : Bool) (name shownName cs : List Char) :
    List Char × Bool :=
  let folded := g.hasAny "iy"
  let wanted (l : List Char) : Bool := r.isIn folded (wide l) != g.has 'v'
  let most := (g.value? 'm').map Text.numeral
  let marked := markedLines wanted most 1 0 (lines cs)
  let hits := marked.filter (·.isHit)
  let any := !hits.isEmpty
  let text :=
    if g.has 'q' then []
    else if g.has 'l' then (if any then name ++ ['\n'] else [])
    else if g.has 'L' then (if any then [] else name ++ ['\n'])
    else if g.has 'c' then
      (if shownName.isEmpty then [] else shownName ++ [':']) ++ shown hits.length ++ ['\n']
    else if g.has 'o' then
      if g.has 'v' then []
      else hits.flatMap fun l =>
        (matchesIn r folded (l.text.length + 1) 0 none (wide l.text)).flatMap fun found =>
          lineMark g shownName l ++ narrow found ++ ['\n']
    else showLines g shownName apart none (withContext before after marked)
  (text, any)

def grepAccepted : Accepted :=
  accepting "EFGPe:f:ivcnoqswxhHlLm:A:B:C:rRbyazZ"
    [("extended-regexp", 'E'), ("fixed-strings", 'F'), ("basic-regexp", 'G'), ("perl-regexp", 'P'), ("regexp", 'e'),
      ("file", 'f'), ("ignore-case", 'i'), ("invert-match", 'v'), ("count", 'c'), ("line-number", 'n'),
      ("only-matching", 'o'), ("quiet", 'q'), ("silent", 'q'), ("no-messages", 's'), ("word-regexp", 'w'),
      ("line-regexp", 'x'), ("no-filename", 'h'), ("with-filename", 'H'), ("files-with-matches", 'l'),
      ("files-without-match", 'L'), ("max-count", 'm'), ("after-context", 'A'), ("before-context", 'B'),
      ("context", 'C'), ("recursive", 'r'), ("byte-offset", 'b'), ("text", 'a')]

/-- The files below a route, in the order of their names; `fuel` bounds the depth. -/
def filesBelow (m : Machine) : Nat → List Char → Arguments
  | 0, _ => []
  | fuel + 1, route =>
    match found m route with
    | .ok (p, .directory) =>
      (namesIn m.files p).flatMap fun n => filesBelow m fuel (inside route (octetsOf n))
    | _ => [route]

/-- How `grep` is called. -/
def grepUsage : List Char :=
  octetsOf "Usage: grep [OPTION]... PATTERNS [FILE]...\nTry 'grep --help' for more information."

def grep : Utility := fun args m =>
  let args := args.map fun a =>
    match a with
    | '-' :: ds => if !ds.isEmpty && ds.all Text.isDigit then '-' :: 'C' :: ds else a
    | _ => a
  match readOptions grepAccepted false none args with
  | .error flaw => m.refuse 2 (octetsOf "grep: " ++ flaw.message ++ '\n' :: grepUsage)
  | .ok g =>
    let lengths := ['A', 'B', 'C'].filterMap g.value?
    let ofFiles := (g.values 'f').map fun f =>
      let text := ((m.files.read (m.placeOf f)).toOption.map octets).getD []
      if text.getLast? = some '\n' then text.dropLast else text
    let given := g.values 'e' ++ ofFiles
    let (texts, words) := if given.isEmpty then (g.words.take 1, g.words.drop 1) else (given, g.words)
    if texts.isEmpty then m.refuse 2 grepUsage
    else
      match lengths.find? fun a => a.isEmpty || !a.all Text.isDigit with
      | some a => m.refuse 2 (octetsOf "grep: " ++ a ++ octetsOf ": invalid context length argument")
      | none =>
        let text := joinWith ['\n'] texts
        let number (c : Char) : Nat := ((g.value? c <|> g.value? 'C').map Text.numeral).getD 0
        if isBareClass text && !g.has 'F' then
          m.refuse 2 (octetsOf "grep: character class syntax is [[:space:]], not [:space:]")
        else
          match patternOf g text with
          | .error flaw => m.refuse 2 (octetsOf ("grep: " ++ flaw.message))
          | .ok r =>
            let deep := g.hasAny "rR"
            let routes := if deep then
                (if words.isEmpty then (filesBelow m (m.files.nodes.length + 2) ['.']).map (·.drop 2)
                else words.flatMap (filesBelow m (m.files.nodes.length + 2)))
              else words
            let (rs, m) := if deep && routes.isEmpty then ([], m.finish 0) else readings "grep" routes m
            let rs := if g.has 's' then
                rs.map fun r => { r with text := r.text.mapError fun (status, _) => (status, []) }
              else rs
            let named := g.has 'H' || ((1 < words.length || deep) && !g.has 'h')
            let result (file : List Char × List Char) : List Char × Bool :=
              let (name, cs) := file
              let name := if name.isEmpty || name = ['-'] then octetsOf "(standard input)" else name
              searchIn g r (number 'B') (number 'A') (!lengths.isEmpty) name (if named then name else []) cs
            let any := (textsOf rs).any fun file => (result file).2
            let hits (r : Reading) : Bool := r.text.toOption.any fun cs => (result (r.name, cs)).2
            let rs := if g.has 'q' then rs.takeWhile (!hits ·) ++ (rs.dropWhile (!hits ·)).take 1 else rs
            let failed := rs.any fun r => r.text.toOption.isNone
            let status := if g.has 'q' && any then 0 else if failed then 2 else if any then 0 else 1
            let warned := (patternWarnings g text)
            let m := if warned.isEmpty then m else m.complain warned
            (weave (fun files => files.flatMap fun file => (result file).1) [] rs m).finish status

end Foreach.Shell.Utility

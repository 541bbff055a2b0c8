import Foreach.Shell.Regex
import Foreach.Shell.Utility.Option
import Foreach.Shell.Utility.Print

/-!
Counting, cutting and changing the lines of a text.
-/

namespace Foreach.Shell.Utility

/-- A byte in signs that can be seen. -/
def visible (tabs : Bool) (c : Char) : List Char :=
  let n := c.toNat
  let plain (n : Nat) : List Char :=
    if n < 32 then ['^', Char.ofNat (n + 64)] else if n = 127 then ['^', '?'] else [Char.ofNat n]
  if c = '\t' && !tabs then [c]
  else if n < 128 then plain n
  else 'M' :: '-' :: plain (n - 128)

/-- Runs of lines without characters made one such line. -/
def squeezeLines : List (List Char) → List (List Char)
  | a :: b :: rest => if a.isEmpty && b.isEmpty then squeezeLines (b :: rest) else a :: squeezeLines (b :: rest)
  | ls => ls

/-- Lines with the numbers in front that some of them get. -/
def numberLines (counts : List Char → Bool) (mark : Nat → List Char) (blank : List Char) (next step : Nat) :
    List (List Char) → List (List Char)
  | [] => []
  | l :: ls =>
    if counts l then (mark next ++ l) :: numberLines counts mark blank (next + step) step ls
    else (blank ++ l) :: numberLines counts mark blank next step ls

/-- Whether the output goes to the very file that is read, the input under a dash. -/
def isOutput (m : Machine) (a : List Char) : Bool :=
  match m.streams.lookup 1, m.streams.lookup 0 with
  | some (.file p), some (.source n) =>
    if a.isEmpty || a = ['-'] then m.origins.lookup n = some p else m.placeOf a = p
  | some (.file p), _ => m.placeOf a = p
  | _, _ => false

/-- Files that are read, but not into themselves once anything is in them. -/
def sparing (m : Machine) : Bool → List Reading → List Reading
  | _, [] => []
  | written, r :: rs =>
    let written := written || r.text.toOption.any (!·.isEmpty)
    if written && isOutput m r.name then
      let name := if r.name.isEmpty then ['-'] else r.name
      ⟨r.name, .error (1, complaint "cat" (shownName false name) "input file is output file")⟩
        :: sparing m written rs
    else r :: sparing m written rs

def cat : Utility :=
  let names := [("number", 'n'), ("number-nonblank", 'b'), ("show-all", 'A'), ("show-ends", 'E'),
    ("show-tabs", 'T'), ("show-nonprinting", 'v'), ("squeeze-blank", 's')]
  withGiven "cat" 1 (accepting "nbsEAetTvu" names) fun g m =>
    let (rs, m) := readings "cat" g.words m
    let mark (n : Nat) : List Char := widened false false 6 (shown n) ++ ['\t']
    let lineEnd := if g.hasAny "AeE" then ['$', '\n'] else ['\n']
    let changed (cs : List Char) : List Char :=
      let rows := (if g.has 's' then squeezeLines (lines cs) else lines cs).map fun l =>
        if g.hasAny "Avet" then l.flatMap (visible (g.hasAny "AtT"))
        else if g.has 'T' then l.flatMap fun c => if c = '\t' then ['^', 'I'] else [c]
        else l
      let rows := if g.has 'b' then numberLines (!·.isEmpty) mark [] 1 1 rows
        else if g.has 'n' then numberLines (fun _ => true) mark [] 1 1 rows
        else rows
      let text := rows.flatMap (· ++ lineEnd)
      if cs.getLast? = some '\n' then text else text.take (text.length - lineEnd.length)
    weave (fun texts =>
      let cs := texts.flatMap (·.2)
      if g.options.isEmpty then cs else changed cs) [] (sparing m false rs) m

def isBlankChar (c : Char) : Bool := c = ' ' || ('\t' ≤ c && c ≤ '\r')

/-- The words of a text. -/
def words (cs : List Char) : List (List Char) :=
  (Text.split ' ' (cs.map fun c => if isBlankChar c then ' ' else c)).filter (· ≠ [])

/-- The widest line of a text, a tab leading to the next multiple of eight. -/
def widest (cs : List Char) : Nat :=
  let width (l : List Char) : Nat :=
    (Utf8.decodeLossy (ofOctets l)).foldl (fun n c => if c = '\t' then (n / 8 + 1) * 8 else n + 1) 0
  ((lines cs).map width).foldl max 0

/-- What `wc` counts in a text; `all` tells whether it is the usual three counts. -/
def countsOf (g : Given) (cs : List Char) : List Nat :=
  let all := g.options.isEmpty
  (if all || g.has 'l' then [cs.count '\n'] else [])
    ++ (if all || g.has 'w' then [(words cs).length] else [])
    ++ (if g.has 'm' then [(Utf8.decodeLossy (ofOctets cs)).length] else [])
    ++ (if all || g.has 'c' then [cs.length] else [])
    ++ (if g.has 'L' then [widest cs] else [])

/-- The counts for several texts together. -/
def totalsOf (rows : List (List Nat)) (widths : Bool) : List Nat :=
  match rows with
  | [] => []
  | first :: _ =>
    (List.range first.length).map fun i =>
      let column := rows.map fun row => (row[i]?).getD 0
      if widths && i + 1 = first.length then column.foldl max 0 else column.foldl (· + ·) 0

def wc : Utility :=
  let names := [("lines", 'l'), ("words", 'w'), ("chars", 'm'), ("bytes", 'c'), ("max-line-length", 'L')]
  withGiven "wc" 1 (accepting "lwmcL" names) fun g m =>
    let (rs, m) := readings "wc" g.words m
    let found := textsOf rs
    let zeros := (countsOf g []).map fun _ => 0
    let totals := if found.isEmpty then zeros
      else totalsOf (found.map fun (_, cs) => countsOf g cs) (g.has 'L')
    let size := (found.map fun (_, cs) => cs.length).foldl (· + ·) 0
    let piped := g.words.isEmpty || g.words.contains ['-']
    let width := if zeros.length = 1 && g.words.length ≤ 1 then 1
      else max (shown size).length (if piped then 7 else 1)
    let row (name : List Char) (counts : List Nat) : List Char :=
      let columns := counts.map fun n => widened false false width (shown n)
      spaced (columns ++ if name.isEmpty then [] else [name]) ++ ['\n']
    let m := weave (fun texts => texts.flatMap fun (name, cs) => row name (countsOf g cs)) [] rs m
    m.say (if 1 < g.words.length then row (octetsOf "total") totals else [])

/-! ### Beginnings and ends -/

/-- The numeral of a count with a suffix for its multiples. -/
def count? (cs : List Char) : Option Nat :=
  let digits := cs.takeWhile Text.isDigit
  let factor? := match textOf (cs.drop digits.length) with
    | "" => some 1
    | "b" => some 512
    | "k" | "K" => some 1024
    | "kB" => some 1000
    | "m" | "M" => some 1048576
    | _ => none
  if digits.isEmpty then none else factor?.map (Text.numeral digits * ·)

/-- Old options that are counts of lines, such as `-5`, in their new form. -/
def withCounts : Arguments → Arguments
  | ('-' :: c :: cs) :: rest =>
    if Text.isDigit c && cs.all Text.isDigit then ['-', 'n'] :: (c :: cs) :: rest else ('-' :: c :: cs) :: rest
  | args => args

/-- The first `n` lines of a text with their ends. -/
def firstLines : Nat → List Char → List Char
  | 0, _ => []
  | n + 1, cs =>
    let line := cs.takeWhile (· != '\n')
    match cs.dropWhile (· != '\n') with
    | [] => line
    | _ :: rest => line ++ '\n' :: firstLines n rest

/-- A text without its first `n` lines. -/
def dropLines : Nat → List Char → List Char
  | 0, cs => cs
  | n + 1, cs => dropLines n ((cs.dropWhile (· != '\n')).drop 1)

/-- What is asked of the ends of texts: whether it is counted in bytes, the sign of the count, and the
count; or the word that is none. -/
def askedCount (g : Given) : Except (Bool × List Char) (Bool × Option Char × Nat) :=
  let last := (g.options.filter fun (c, _) => c = 'n' || c = 'c').getLast?
  match last with
  | none => .ok (false, none, 10)
  | some (letter, value) =>
    let sign := value.head?.filter fun c => c = '-' || c = '+'
    match count? (if sign.isSome then value.drop 1 else value) with
    | some n => .ok (letter = 'c', sign, n)
    | none => .error (letter = 'c', value)

/-- A program that shows a part of each text, with a title where there are several. -/
def showEach (who : String) (g : Given) (part : Bool → Option Char → Nat → List Char → List Char)
    (m : Machine) : Machine :=
  match askedCount g with
  | .error (bytes, value) =>
    let what := if bytes then "bytes" else "lines"
    m.refuse 1 (octetsOf s!"{who}: invalid number of {what}: ‘" ++ value ++ octetsOf "’")
  | .ok (bytes, sign, n) =>
    let (rs, m) := readings who g.words m
    let titled := !g.has 'q' && (g.has 'v' || 1 < g.words.length)
    let left := ((textsOf rs).headD ([], [])).2.drop n
    let m := if who = "head" && bytes && sign = none && (g.words.isEmpty || g.words = [['-']]) then m.setInput left
      else m
    weave (fun texts => joinWith (if titled then ['\n'] else []) (texts.map fun (name, cs) =>
      let name := if name.isEmpty || name = ['-'] then octetsOf "standard input" else name
      (if titled then octetsOf "==> " ++ name ++ octetsOf " <==\n" else []) ++ part bytes sign n cs)) [] rs m

def head : Utility := fun args =>
  let names := [("lines", 'n'), ("bytes", 'c'), ("quiet", 'q'), ("silent", 'q'), ("verbose", 'v')]
  let run : Utility := withGiven "head" 1 (accepting "n:c:qvz" names) fun g m =>
    showEach "head" g (fun bytes sign n cs =>
      let size := if bytes then cs.length else (lines cs).length
      let kept := if sign = some '-' then size - n else n
      if bytes then cs.take kept else firstLines kept cs) m
  run (withCounts args)

def tail : Utility := fun args =>
  let names := [("lines", 'n'), ("bytes", 'c'), ("quiet", 'q'), ("silent", 'q'), ("verbose", 'v')]
  let run : Utility := withGiven "tail" 1 (accepting "n:c:qvzfF" names) fun g m =>
    showEach "tail" g (fun bytes sign n cs =>
      let size := if bytes then cs.length else (lines cs).length
      let dropped := if sign = some '+' then n - 1 else size - n
      if bytes then cs.drop dropped else dropLines dropped cs) m
  run (withCounts args)

/-! ### Characters -/

/-- The characters from one to another. -/
def between (low high : Char) : List Char :=
  (List.range (high.toNat + 1 - low.toNat)).map fun i => Char.ofNat (low.toNat + i)

/-- The character of an escape in a set, and the rest. -/
def setEscape? (cs : List Char) : Option (Char × List Char) :=
  match cs with
  | [] => none
  | c :: rest => if c = 'e' then some (c, rest) else (escape? cs) <|> some (c, rest)

/-- The characters that a set denotes, `fill` being how many a sign repeats that does not say how many it
does; or the ends of a range that goes backwards. -/
def expandSet (fill : Nat) : Nat → List Char → Except (List Char) (List Char)
  | 0, _ => .ok []
  | _, [] => .ok []
  | fuel + 1, '[' :: ':' :: rest =>
    let name := rest.takeWhile (· != ':')
    if (rest.drop name.length).take 2 = [':', ']'] then
      let members := (Glob.classRanges (textOf name)).flatMap fun (low, high) => between low high
      (expandSet fill fuel (rest.drop (name.length + 2))).map (members ++ ·)
    else (expandSet fill fuel (':' :: rest)).map ('[' :: ·)
  | fuel + 1, '[' :: '=' :: c :: '=' :: ']' :: rest => (expandSet fill fuel rest).map (c :: ·)
  | fuel + 1, '[' :: c :: '*' :: rest =>
    let digits := rest.takeWhile Text.isDigit
    match rest.drop digits.length with
    | ']' :: after =>
      let count := if Text.numeral digits = 0 then fill else Text.numeral digits
      (expandSet fill fuel after).map (List.replicate count c ++ ·)
    | _ => (expandSet fill fuel (c :: '*' :: rest)).map ('[' :: ·)
  | fuel + 1, c :: rest =>
    let (a, behind) := match c, setEscape? rest with
      | '\\', some (d, behind) => (d, behind)
      | _, _ => (c, rest)
    match behind with
    | '-' :: b :: after =>
      let (b, after) := match b, setEscape? after with
        | '\\', some (d, behind) => (d, behind)
        | _, _ => (b, after)
      if b < a then .error [a, '-', b]
      else (expandSet fill fuel after).map (between a b ++ ·)
    | behind => (expandSet fill fuel behind).map (a :: ·)

def setOf (fill : Nat) (cs : List Char) : Except (List Char) (List Char) :=
  expandSet fill (cs.length + 1) cs

/-- A text with each run of one character from a set made one. -/
def squeeze (p : Char → Bool) : List Char → List Char
  | a :: b :: rest => if a = b ∧ p a then squeeze p (b :: rest) else a :: squeeze p (b :: rest)
  | cs => cs

/-- What a character becomes; the last one of the second set stands for all that are missing. -/
def exchange (first second : List Char) (c : Char) : Char :=
  match first.reverse.idxOf? c with
  | none => c
  | some i =>
    let index := first.length - 1 - i
    (second[index]?).getD (second.getLast?.getD c)

/-- A text with the characters of one set exchanged for those of another, or dropped. -/
def translated (g : Given) (first second : List Char) (cs : List Char) : List Char :=
  let inverted := g.hasAny "cC"
  let first := if g.has 't' then first.take second.length else first
  let inFirst (c : Char) : Bool := first.contains c != inverted
  let exchanged :=
    if g.has 'd' then cs.filter fun c => !inFirst c
    else if second.isEmpty then cs
    else if inverted then cs.map fun c => if inFirst c then second.getLast?.getD c else c
    else cs.map (exchange first second)
  if g.has 's' then squeeze (if second.isEmpty then inFirst else second.contains) exchanged else exchanged

def tr : Utility := fun args m =>
  let names := [("complement", 'c'), ("delete", 'd'), ("squeeze-repeats", 's'), ("truncate-set1", 't')]
  match readOptions (accepting "cCdst" names) true none args with
  | .error flaw => misused "tr" 1 flaw.message m
  | .ok g =>
    let both := !g.has 'd' || g.has 's'
    let extra (a : List Char) (why : String) : Machine :=
      misused "tr" 1 (octetsOf "extra operand ‘" ++ a ++ octetsOf s!"’{why}") m
    match g.words with
    | [] => misused "tr" 1 (octetsOf "missing operand") m
    | [only] =>
      if both && !(g.has 's' && !g.has 'd') then
        let why := if g.has 'd' then "Two strings must be given when both deleting and squeezing repeats."
          else "Two strings must be given when translating."
        misused "tr" 1 (octetsOf "missing operand after ‘" ++ only ++ octetsOf s!"’\n{why}") m
      else run g only [] m
    | [first, second] =>
      if !both then extra second "\nOnly one string may be given when deleting without squeezing repeats."
      else if second.isEmpty && !g.has 't' && !g.has 'd' then
        m.refuse 1 (octetsOf "tr: when not truncating set1, string2 must be non-empty")
      else run g first second m
    | _ :: _ :: third :: _ => extra third ""
where
  run (g : Given) (first second : List Char) (m : Machine) : Machine :=
    let sets := do
      let a ← setOf 0 first
      let b ← setOf 0 second
      let b ← setOf (a.length - b.length) second
      return (a, b)
    match sets with
    | .error ends =>
      m.refuse 1 (octetsOf "tr: range-endpoints of '" ++ ends ++ octetsOf "' are in reverse collating sequence order")
    | .ok (a, b) =>
      let (cs, m) := m.takeInput
      m.answer (translated g a b cs)

/-- The characters of a text by their bytes. -/
def encodedChars (cs : List Char) : List (List Char) :=
  (Utf8.decodeLossy (ofOctets cs)).map fun c => octetsOf (String.ofList [c])

def rev : Utility := fun args m =>
  let (texts, m) := sources "rev" args m
  m.say (texts.flatMap fun (_, cs) => mapLines (fun l => (encodedChars l).reverse.flatten) cs)

/-! ### Columns -/

/-- The first and the last position of a part of a list such as `1,3-5`, or what is wrong with it; `kind`
is what is counted. -/
def range? (kind : String) (r : List Char) : Except (List Char) (Nat × Option Nat) :=
  let wrong : Except (List Char) (Nat × Option Nat) :=
    .error (octetsOf (if kind = "fields" then "invalid field value ‘" else "invalid byte or character range ‘")
      ++ r ++ octetsOf "’")
  let numbered : Except (List Char) (Nat × Option Nat) :=
    .error (octetsOf (if kind = "fields" then "fields are numbered from 1"
      else "byte/character positions are numbered from 1"))
  let low := r.takeWhile Text.isDigit
  match r.drop low.length with
  | [] => if low.isEmpty || Text.numeral low = 0 then numbered else .ok (Text.numeral low, some (Text.numeral low))
  | '-' :: high =>
    if !high.all Text.isDigit then wrong
    else if low.isEmpty && high.isEmpty then .error (octetsOf "invalid range with no endpoint: -")
    else if (!low.isEmpty && Text.numeral low = 0) then numbered
    else if !high.isEmpty && Text.numeral high < Text.numeral low then .error (octetsOf "invalid decreasing range")
    else .ok (Text.numeral low, if high.isEmpty then none else some (Text.numeral high))
  | _ => wrong

/-- The listed members of a row, counted from one, or those that are not listed. -/
def chosen {α : Type} (ranges : List (Nat × Option Nat)) (inverted : Bool) (row : List α) : List α :=
  (row.zipIdx 1).filterMap fun (x, i) =>
    let listed := ranges.any fun (low, high) => low ≤ i && high.all (i ≤ ·)
    if listed != inverted then some x else none

def cut : Utility :=
  let names := [("delimiter", 'd'), ("fields", 'f'), ("characters", 'c'), ("bytes", 'b'), ("only-delimited", 's'),
    ("complement", 'C'), ("output-delimiter", 'O')]
  withGiven "cut" 1 (accepting "d:f:c:b:snCO:" names) fun g m =>
    let wrong (what : List Char) : Machine := misused "cut" 1 what m
    match g.options.filter fun (c, _) => c = 'f' || c = 'c' || c = 'b' with
    | [] => wrong (octetsOf "you must specify a list of bytes, characters, or fields")
    | (letter, list) :: more =>
      let byFields := decide (letter = 'f')
      let delimiter := g.value? 'd'
      if !more.isEmpty then wrong (octetsOf "only one list may be specified")
      else if delimiter.any (1 < ·.length) then wrong (octetsOf "the delimiter must be a single character")
      else
        match (Text.split ',' list).mapM (range? (if byFields then "fields" else "bytes")) with
        | .error what => wrong what
        | .ok ranges =>
          if delimiter.isSome && !byFields then
            wrong (octetsOf "an input delimiter may be specified only when operating on fields")
          else
            let separator := (delimiter.getD ['\t']).headD (Char.ofNat 0)
            let joint := (g.value? 'O').getD (if byFields then [separator] else [])
            let kept (l : List Char) : Option (List Char) :=
              if byFields then
                let parts := Text.split separator l
                if parts.length ≤ 1 then (if g.has 's' then none else some l)
                else some (joinWith joint (chosen ranges (g.has 'C') parts))
              else some (chosen ranges (g.has 'C') l)
            writeEach "cut" (fun cs => unlines ((lines cs).filterMap kept)) g.words m

/-- Rows of several lines, cut so that none is longer than a width, if possible behind a blank. -/
def folded (width : Nat) (atBlanks : Bool) : Nat → List Char → List Char
  | 0, cs => cs
  | fuel + 1, cs =>
    if cs.length ≤ width ∨ width = 0 then cs
    else
      let row := cs.take width
      let upToBlank := (row.reverse.dropWhile fun c => c != ' ' && c != '\t').reverse
      let row := if atBlanks && !upToBlank.isEmpty then upToBlank else row
      row ++ '\n' :: folded width atBlanks fuel (cs.drop row.length)

def fold : Utility := fun args =>
  let run : Utility := withGiven "fold" 1 (accepting "w:sb" [("width", 'w'), ("spaces", 's')]) fun g m =>
    match (g.value? 'w').elim (some 80) count? with
    | none | some 0 =>
      m.refuse 1 (octetsOf "fold: invalid number of columns: ‘" ++ (g.value? 'w').getD [] ++ octetsOf "’")
    | some width =>
      writeEach "fold" (mapLines fun l => folded width (g.has 's') l.length l) g.words m
  run (args.map fun a =>
    match a with
    | '-' :: ds => if !ds.isEmpty && ds.all Text.isDigit then '-' :: 'w' :: ds else a
    | _ => a)

/-- The texts of several files, the input being dealt out line by line among the dashes. -/
def dealt (m : Machine) (words : Arguments) : List (List (List Char)) × Machine :=
  let dashes := (words.filter (· = ['-'])).length
  let (all, n) := if dashes = 0 then ([], m) else (let (cs, n) := m.takeInput; (lines cs, n))
  let share (k : Nat) : List (List Char) :=
    (all.zipIdx).filterMap fun (l, i) => if i % dashes = k then some l else none
  words.foldl (fun (rows, m) a =>
    if a = ['-'] then (rows ++ [share (rows.filter fun (dash, _) => dash).length |> fun ls => (true, ls)], m)
    else
      let (r, m) := readingOf "paste" m a
      if m.status = 0 then (rows ++ [(false, lines (r.text.toOption.getD []))], complainOf m r) else (rows, m))
      ([], n.finish 0)
    |> fun (rows, m) => (rows.map (·.2), m)

/-- Parts with separators between them, which are taken in turn. -/
def joinInTurn (separators : List (List Char)) (parts : List (List Char)) : List Char :=
  (parts.zipIdx).flatMap fun (p, i) =>
    if i = 0 then p else (separators[(i - 1) % separators.length]?).getD [] ++ p

/-- The separators that the value of an option lists. -/
def separatorsOf : List Char → List (List Char)
  | [] => []
  | '\\' :: c :: rest =>
    (if c = '0' then [] else [(escapeLetter? c).getD c]) :: separatorsOf rest
  | c :: rest => [c] :: separatorsOf rest

def paste : Utility :=
  withGiven "paste" 1 (accepting "d:sz" [("delimiters", 'd'), ("serial", 's')]) fun g m =>
    let separators := separatorsOf ((g.value? 'd').getD ['\t'])
    let separators := if separators.isEmpty then [[]] else separators
    let (columns, m) := dealt m (if g.words.isEmpty then [['-']] else g.words)
    if m.status ≠ 0 then m
    else if g.has 's' then m.say (unlines (columns.map (joinInTurn separators)))
    else
      let height := (columns.map List.length).foldl max 0
      m.say (unlines ((List.range height).map fun i =>
        joinInTurn separators (columns.map fun ls => (ls[i]?).getD [])))

def nl : Utility :=
  withGiven "nl" 1 (accepting "b:w:s:v:i:n:" []) fun g m =>
    let (rs, m) := readings "nl" g.words m
    let number (c : Char) (usual : Nat) : Nat := ((g.value? c).map Text.numeral).getD usual
    let width := number 'w' 6
    let separator := (g.value? 's').getD ['\t']
    let format := textOf ((g.value? 'n').getD ['r', 'n'])
    let mark (n : Nat) : List Char := widened (format = "ln") (format = "rz") width (shown n) ++ separator
    let counts (l : List Char) : Bool := g.value? 'b' = some ['a'] || (g.value? 'b' ≠ some ['n'] && !l.isEmpty)
    let blank := List.replicate (width + separator.length) ' '
    weave (fun texts => unlines (numberLines counts mark blank (number 'v' 1) (number 'i' 1)
      (texts.flatMap fun (_, cs) => lines cs))) [] rs m

/-- A text with its lines in the opposite order, a last one without an end joined to the one before. -/
def backwards (cs : List Char) : List Char :=
  let rows := unlines (lines cs).dropLast.reverse
  let last := (lines cs).getLast?.getD []
  if cs.getLast? = some '\n' then last ++ '\n' :: rows else last ++ rows

def tac : Utility := fun args m =>
  let (texts, m) := sources "tac" args m
  m.say (texts.flatMap fun (_, cs) => backwards cs)

end Foreach.Shell.Utility

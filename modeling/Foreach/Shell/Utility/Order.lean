import Foreach.Shell.Utility.Lines

/-!
Ordering and comparing lines: `sort`, `uniq`, `comm` and `cmp`.
-/

namespace Foreach.Shell.Utility

/-! ### Keys -/

/-- How texts are compared. -/
inductive Measure where
  | bytes
  /-- By the decimal number at the start. -/
  | number
  /-- By the number at the start, with an exponent. -/
  | real
  /-- By the number at the start, with a letter for its size. -/
  | size
  | month
  | version
  deriving DecidableEq

/-- A part of a line, and how parts of this kind are compared. -/
structure Key where
  /-- The first field and the first character in it, counted from one. -/
  first : Nat × Nat
  /-- The last field and the last character in it; no character is all of them. -/
  last : Option (Nat × Nat)
  measure : Measure
  backwards : Bool
  ignoreCase : Bool
  noBlanks : Bool
  onlyWords : Bool

/-- A number at the start of a text as a fraction: how many parts, and how many of them make one. -/
structure Amount where
  parts : Int
  whole : Nat

def Amount.le (a b : Amount) : Bool := decide (a.parts * b.whole ≤ b.parts * a.whole)

/-- The number that a text begins with. -/
def leading (cs : List Char) : Amount :=
  let cs := cs.dropWhile isBlankChar
  let negative := cs.head? = some '-'
  let cs := if negative then cs.drop 1 else cs
  let digits := cs.takeWhile Text.isDigit
  let fraction := match cs.drop digits.length with
    | '.' :: rest => rest.takeWhile Text.isDigit
    | _ => []
  let n : Nat := Text.numeral (digits ++ fraction)
  ⟨if negative then -(n : Int) else n, Nat.pow 10 fraction.length⟩

/-- What is behind the number at the start of a text. -/
def behindNumber (cs : List Char) : List Char :=
  let cs := cs.dropWhile isBlankChar
  let cs := if cs.head? = some '-' then cs.drop 1 else cs
  match cs.dropWhile Text.isDigit with
  | '.' :: rest => rest.dropWhile Text.isDigit
  | rest => rest

/-- The number that a text begins with, with its exponent; a text without one comes before all. -/
def leadingReal (cs : List Char) : Amount :=
  let a := leading cs
  match behindNumber cs with
  | e :: rest =>
    if e = 'e' ∨ e = 'E' then
      let negative := rest.head? = some '-'
      let digits := (if negative || rest.head? = some '+' then rest.drop 1 else rest).takeWhile Text.isDigit
      let n := min (Text.numeral digits) 400
      if negative then ⟨a.parts, a.whole * Nat.pow 10 n⟩ else ⟨a.parts * (Nat.pow 10 n : Nat), a.whole⟩
    else a
  | [] => a

/-- The rank of the letter for the size of a number. -/
def sizeRank (cs : List Char) : Nat :=
  match behindNumber cs with
  | c :: _ => (("KMGTPEZYRQ".toList.idxOf? c.toUpper).map (· + 1)).getD 0
  | [] => 0

/-- The number of the month that a text begins with; none comes first. -/
def monthOf (cs : List Char) : Nat :=
  let name := ((cs.dropWhile isBlankChar).take 3).map Char.toUpper
  ((["JAN", "FEB", "MAR", "APR", "MAY", "JUN", "JUL", "AUG", "SEP", "OCT", "NOV", "DEC"].idxOf?
    (textOf name)).map (· + 1)).getD 0

/-- A text as letters and numbers in turn. -/
def versionParts : Nat → List Char → List (List Char × Nat)
  | 0, _ => []
  | _, [] => []
  | fuel + 1, cs =>
    let letters := cs.takeWhile fun c => !Text.isDigit c
    let digits := (cs.drop letters.length).takeWhile Text.isDigit
    (letters, Text.numeral digits) :: versionParts fuel (cs.drop (letters.length + digits.length))

def versionLe : List (List Char × Nat) → List (List Char × Nat) → Bool
  | [], _ => true
  | _ :: _, [] => false
  | (a, m) :: as, (b, n) :: bs =>
    if a ≠ b then decide (textOf a ≤ textOf b) else if m ≠ n then decide (m ≤ n) else versionLe as bs

/-- Whether one text is not behind another by a measure. -/
def Measure.le (q : Measure) (a b : List Char) : Bool :=
  match q with
  | .bytes => decide (textOf a ≤ textOf b)
  | .number => (leading a).le (leading b)
  | .real => (leadingReal a).le (leadingReal b)
  | .size =>
    let sign (cs : List Char) : Int := (leading cs).parts.sign
    if sign a ≠ sign b then decide (sign a ≤ sign b)
    else if sizeRank a ≠ sizeRank b then decide (sizeRank a * sign a ≤ sizeRank b * sign b)
    else (leading a).le (leading b)
  | .month => decide (monthOf a ≤ monthOf b)
  | .version => versionLe (versionParts (a.length + 1) a) (versionParts (b.length + 1) b)

/-- The fields of a line with where they begin; without a separator each has the blanks before it. -/
def keyFields (separator : Option Char) : Nat → List Char → List (List Char)
  | 0, cs => [cs]
  | fuel + 1, cs =>
    match separator with
    | some s =>
      let field := cs.takeWhile (· != s)
      if field.length = cs.length then [field] else field :: keyFields separator fuel (cs.drop (field.length + 1))
    | none =>
      let blanks := cs.takeWhile isBlankChar
      let field := blanks ++ (cs.drop blanks.length).takeWhile fun c => !isBlankChar c
      if field.length = cs.length then [field] else field :: keyFields separator fuel (cs.drop field.length)

/-- The part of a line that a key names. -/
def Key.part (k : Key) (separator : Option Char) (l : List Char) : List Char :=
  let fields := keyFields separator (l.length + 1) l
  let gap := if separator.isSome then 1 else 0
  let before (n : Nat) : Nat := ((fields.take n).map (·.length + gap)).foldl (· + ·) 0
  let blanks (n : Nat) : Nat :=
    if k.noBlanks then ((fields[n]?).getD []).takeWhile isBlankChar |>.length else 0
  let start := if fields.length < k.first.1 then l.length
    else before (k.first.1 - 1) + blanks (k.first.1 - 1) + (k.first.2 - 1)
  let stop := match k.last with
    | none => l.length
    | some (n, 0) => if fields.length < n then l.length else before n - gap
    | some (n, c) => if fields.length < n then l.length else before (n - 1) + blanks (n - 1) + c
  (l.take stop).drop start

/-- The part of a line that counts for the order. -/
def Key.text (k : Key) (separator : Option Char) (l : List Char) : List Char :=
  let cs := k.part separator l
  let cs := if k.onlyWords then cs.filter fun c => c.isAlphanum || isBlankChar c else cs
  let cs := if k.ignoreCase then cs.map Char.toUpper else cs
  if k.noBlanks then cs.dropWhile isBlankChar else cs

/-- Whether a line is not behind another by some keys, and whether they are equal by all. -/
def linesLe (separator : Option Char) : List Key → List Char → List Char → Bool × Bool
  | [], _, _ => (true, true)
  | k :: ks, a, b =>
    let x := k.text separator a
    let y := k.text separator b
    let forwards := k.measure.le x y
    let backwards := k.measure.le y x
    if forwards && backwards then linesLe separator ks a b
    else (if k.backwards then backwards else forwards, false)

/-! ### Sorting -/

/-- The measure that a letter stands for. -/
def measureOf? (c : Char) : Option Measure :=
  if c = 'n' then some .number
  else if c = 'g' then some .real
  else if c = 'h' then some .size
  else if c = 'M' then some .month
  else if c = 'V' then some .version
  else none

/-- A key with what some letters ask for. -/
def Key.with (k : Key) (letters : List Char) : Key where
  first := k.first
  last := k.last
  measure := (letters.findSome? measureOf?).getD k.measure
  backwards := k.backwards || letters.contains 'r'
  ignoreCase := k.ignoreCase || letters.contains 'f'
  noBlanks := k.noBlanks || letters.contains 'b'
  onlyWords := k.onlyWords || letters.contains 'd'

/-- The place of a key: a field, and a character in it if there is one; then its letters. -/
def keyPlace (cs : List Char) : (Nat × Nat) × List Char :=
  let field := cs.takeWhile Text.isDigit
  let rest := cs.drop field.length
  match rest with
  | '.' :: rest =>
    let place := rest.takeWhile Text.isDigit
    ((Text.numeral field, Text.numeral place), rest.drop place.length)
  | rest => ((Text.numeral field, 0), rest)

/-- The whole line as a key. -/
def wholeLine : Key := ⟨(1, 1), none, .bytes, false, false, false, false⟩

/-- The key that a value of the option for keys names; letters of its own take the place of those that are
for all. -/
def keyOf (letters : List Char) (cs : List Char) : Key :=
  let parts := Text.split ',' cs
  let (first, own) := keyPlace (parts.headD [])
  let (last, more) := match parts with
    | _ :: second :: _ => let (place, letters) := keyPlace second; (some place, letters)
    | _ => (none, [])
  let k := { wholeLine with first := (first.1, max first.2 1), last }
  k.with (if (own ++ more).isEmpty then letters else own ++ more)

/-- The first line that is not in order, with its number. -/
def disorder? (le : List Char → List Char → Bool) : Nat → List (List Char) → Option (Nat × List Char)
  | n, a :: b :: rest => if le a b then disorder? le (n + 1) (b :: rest) else some (n + 1, b)
  | _, _ => none

/-- Lines without those that are equal to the one before them. -/
def withoutRepeats (same : List Char → List Char → Bool) : List (List Char) → List (List Char)
  | a :: b :: rest =>
    if same a b then withoutRepeats same (a :: rest) else a :: withoutRepeats same (b :: rest)
  | ls => ls
termination_by ls => ls.length

def sort : Utility :=
  let names := [("numeric-sort", 'n'), ("reverse", 'r'), ("unique", 'u'), ("key", 'k'), ("field-separator", 't'),
    ("ignore-case", 'f'), ("stable", 's'), ("check", 'c'), ("output", 'o'), ("human-numeric-sort", 'h'),
    ("version-sort", 'V'), ("general-numeric-sort", 'g'), ("month-sort", 'M'), ("ignore-leading-blanks", 'b'),
    ("dictionary-order", 'd'), ("zero-terminated", 'z')]
  withGiven "sort" 2 (accepting "nruk:t:fsco:hVgMbdizmCRS:T:" names) fun g m =>
    let letters := g.options.map (·.1)
    let keys := g.values 'k'
    let separator := (g.value? 't').bind fun t => if t = ['\\', '0'] then some (Char.ofNat 0) else t.head?
    let given := if keys.isEmpty then [wholeLine.with letters] else keys.map (keyOf letters)
    let wrong := keys.find? fun k => (keyPlace k).1.1 = 0
    match wrong with
    | some k =>
      if (k.head?.map Text.isDigit).getD false then
        m.refuse 2 (octetsOf "sort: -: invalid field specification ‘" ++ k ++ octetsOf "’")
      else m.refuse 2 (octetsOf "sort: invalid number at field start: invalid count at start of ‘" ++ k
        ++ octetsOf "’")
    | none =>
      let lineEnd := if g.has 'z' then Char.ofNat 0 else '\n'
      let (found, m) := sources "sort" g.words m
      let cut (cs : List Char) : List (List Char) :=
        let parts := Text.split lineEnd cs
        if parts.getLast? = some [] then parts.dropLast else parts
      let ls := found.flatMap fun (_, cs) => cut cs
      let backwards := g.has 'r'
      let le (a b : List Char) : Bool :=
        let (le, same) := linesLe separator given a b
        if !same then le
        else if g.hasAny "su" then true
        else if backwards then decide (textOf b ≤ textOf a) else decide (textOf a ≤ textOf b)
      let same (a b : List Char) : Bool := (linesLe separator given a b).2
      if m.status ≠ 0 then m
      else if g.hasAny "cC" then
        let inOrder (a b : List Char) : Bool := le a b && !(g.has 'u' && same a b)
        match disorder? inOrder 1 ls with
        | none => m
        | some (n, l) =>
          if g.has 'C' then m.finish 1
          else
            let name := (g.words.headD ['-'])
            m.refuse 1 (octetsOf "sort: " ++ name ++ octetsOf s!":{n}: disorder: " ++ l)
      else
        let sorted := ls.mergeSort le
        let kept := if g.has 'u' then withoutRepeats same sorted else sorted
        let text := kept.flatMap (· ++ [lineEnd])
        match g.value? 'o' with
        | none => m.say text
        | some file =>
          match m.files.write (m.placeOf file) (ofOctets text) with
          | .ok files => { m with files }
          | .error f => m.refuse 2 (octetsOf "sort: open failed: " ++ file ++ octetsOf s!": {absence f}")

/-! ### Repeated and common lines -/

/-- Runs of lines with equal keys. -/
def runs (key : List Char → List Char) : List (List Char) → List (List (List Char))
  | [] => []
  | l :: ls =>
    match runs key ls with
    | (k :: rest) :: more => if key k = key l then (l :: k :: rest) :: more else [l] :: (k :: rest) :: more
    | more => [l] :: more

/-- A line without some fields, each with the blanks before it. -/
def dropFields : Nat → List Char → List Char
  | 0, cs => cs
  | n + 1, cs => dropFields n ((cs.dropWhile isBlankChar).dropWhile fun c => !isBlankChar c)

def uniq : Utility :=
  let names := [("count", 'c'), ("repeated", 'd'), ("unique", 'u'), ("ignore-case", 'i'), ("skip-fields", 'f'),
    ("skip-chars", 's'), ("check-chars", 'w')]
  withGiven "uniq" 1 (accepting "cdDuif:s:w:z" names) fun g m =>
    let (cs, m) := contents "uniq" (g.words.take 1) m
    let number (c : Char) : Nat := ((g.value? c).map Text.numeral).getD 0
    let key (l : List Char) : List Char :=
      let l := (dropFields (number 'f') l).drop (number 's')
      let l := if g.has 'w' then l.take (number 'w') else l
      if g.has 'i' then l.map Char.toUpper else l
    let kept := (runs key (lines cs)).filter fun run =>
      (!g.hasAny "dD" || 1 < run.length) && (!g.has 'u' || run.length = 1)
    let text := unlines (kept.flatMap fun run =>
      if g.has 'D' then run
      else if g.has 'c' then [widened false false 7 (shown run.length) ++ ' ' :: run.headD []]
      else run.take 1)
    match g.words.drop 1 with
    | [] => m.say text
    | [file] =>
      match m.files.write (m.placeOf file) (ofOctets text) with
      | .ok files => { m with files }
      | .error f => m.refuse 1 (complaint "uniq" file (absence f))
    | _ :: extra :: _ => misused "uniq" 1 (octetsOf "extra operand ‘" ++ extra ++ octetsOf "’") m

/-- Lines of two texts in order, each with the number of the column it belongs to: the first text's alone,
the second's alone, both's. -/
def merged : List (List Char) → List (List Char) → List (Nat × List Char)
  | [], bs => bs.map ((1, ·))
  | as, [] => as.map ((0, ·))
  | a :: as, b :: bs =>
    if a = b then (2, a) :: merged as bs
    else if textOf a < textOf b then (0, a) :: merged as (b :: bs)
    else (1, b) :: merged (a :: as) bs
termination_by as bs => as.length + bs.length

def comm : Utility :=
  withGiven "comm" 1 (accepting "123z" []) fun g m =>
    match g.words with
    | [] => misused "comm" 1 (octetsOf "missing operand") m
    | [only] => misused "comm" 1 (octetsOf "missing operand after ‘" ++ only ++ octetsOf "’") m
    | [a, b] =>
      let (rs, m) := readings "comm" [a, b] m
      match textsOf rs with
      | [(_, x), (_, y)] =>
        let hidden (column : Nat) : Bool := g.has (Char.ofNat ('1'.toNat + column))
        m.say (unlines ((merged (lines x) (lines y)).filterMap fun (column, l) =>
          if hidden column then none
          else
            let tabs := ((List.range column).filter fun c => !hidden c).length
            some (List.replicate tabs '\t' ++ l)))
      | _ => ((rs.filter fun r => r.text.toOption.isNone).take 1).foldl complainOf m
    | _ :: _ :: third :: _ => misused "comm" 1 (octetsOf "extra operand ‘" ++ third ++ octetsOf "’") m

/-- Where two texts differ: how many bytes are before it, and how many line ends. -/
def difference? : Nat → Nat → List Char → List Char → Option (Nat × Nat)
  | _, _, [], [] => none
  | n, ends, a :: as, b :: bs =>
    if a = b then difference? (n + 1) (ends + if a = '\n' then 1 else 0) as bs else some (n, ends)
  | n, ends, _, _ => some (n, ends)

def cmp : Utility :=
  withGiven "cmp" 2 (accepting "sbl" [("silent", 's'), ("quiet", 's')]) fun g m =>
    match g.words with
    | [] => misused "cmp" 2 (octetsOf "missing operand after 'cmp'") m
    | words =>
      let (rs, m) := readings "cmp" ((words ++ [['-']]).take 2) m
      match textsOf rs with
      | [(a, x), (b, y)] =>
        match difference? 0 0 x y with
        | none => m
        | some (n, ends) =>
          if g.has 's' then m.finish 1
          else if n < min x.length y.length then
            (m.say (a ++ ' ' :: b ++ octetsOf s!" differ: byte {n + 1}, line {ends + 1}\n")).finish 1
          else
            let shorter := if x.length < y.length then a else b
            if n = 0 then m.refuse 1 (octetsOf "cmp: EOF on " ++ shorter ++ octetsOf " which is empty")
            else
              let whole := (if x.length < y.length then x else y).getLast? = some '\n'
              let place := if whole then s!"line {ends}" else s!"in line {ends + 1}"
              m.refuse 1 (octetsOf "cmp: EOF on " ++ shorter ++ octetsOf s!" after byte {n}, {place}")
      | _ => (((rs.filter fun r => r.text.toOption.isNone).take 1).foldl complainOf m).finish 2

end Foreach.Shell.Utility

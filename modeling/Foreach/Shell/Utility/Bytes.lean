import Foreach.Shell.Utility.Numbers

/-!
Bytes in other spellings: `od` and `base64`.
-/

namespace Foreach.Shell.Utility

/-- Rows of at most `n` members. -/
def rowsOf {α : Type} (n : Nat) : Nat → List α → List (List α)
  | 0, _ => []
  | fuel + 1, xs => if xs.isEmpty then [] else xs.take n :: rowsOf n fuel (xs.drop n)

/-- A byte as `od -c` shows it. -/
def shownByte (c : Char) : List Char :=
  match c.toNat with
  | 0 => ['\\', '0']
  | 7 => ['\\', 'a']
  | 8 => ['\\', 'b']
  | 9 => ['\\', 't']
  | 10 => ['\\', 'n']
  | 11 => ['\\', 'v']
  | 12 => ['\\', 'f']
  | 13 => ['\\', 'r']
  | n => if 32 ≤ n ∧ n < 127 then [c] else widened false true 3 (Nat.toDigits 8 n)

/-- The names of the characters without a shape. -/
def controlNames : List String :=
  ["nul", "soh", "stx", "etx", "eot", "enq", "ack", "bel", "bs", "ht", "nl", "vt", "ff", "cr", "so", "si", "dle",
    "dc1", "dc2", "dc3", "dc4", "nak", "syn", "etb", "can", "em", "sub", "esc", "fs", "gs", "rs", "us", "sp"]

/-- How bytes are shown: a letter for the kind, and how many of them make a number. -/
structure Display where
  kind : Char
  size : Nat

/-- The display that options ask for. -/
def displayOf (g : Given) : Display :=
  let ofType (t : List Char) : Display :=
    let size := match t.drop 1 with
      | [] => 4
      | c :: _ => if Text.isDigit c then Text.numeral ((t.drop 1).takeWhile Text.isDigit) else
        if c = 'C' then 1 else if c = 'S' then 2 else if c = 'L' then 8 else 4
    let kind := t.headD 'o'
    ⟨kind, if kind = 'c' || kind = 'a' then 1 else size⟩
  match g.options.filter fun (c, _) => "tcbxodi".toList.contains c with
  | ('t', value) :: _ => ofType value
  | ('c', _) :: _ => ⟨'c', 1⟩
  | ('b', _) :: _ => ⟨'o', 1⟩
  | ('x', _) :: _ => ⟨'x', 2⟩
  | ('d', _) :: _ => ⟨'u', 2⟩
  | ('i', _) :: _ => ⟨'d', 4⟩
  | _ => ⟨'o', 2⟩

/-- How many columns a number takes. -/
def Display.width (d : Display) : Nat :=
  match d.kind with
  | 'x' => 2 * d.size + 1
  | 'o' => (8 * d.size + 2) / 3 + 1
  | 'u' => (Nat.toDigits 10 (Nat.pow 256 d.size - 1)).length + 1
  | 'd' => (Nat.toDigits 10 (Nat.pow 256 d.size / 2)).length + 2
  | _ => 4

/-- A group of bytes, the least of them first, as one number. -/
def Display.shows (d : Display) (bytes : List Char) : List Char :=
  let n := bytes.foldr (fun c n => 256 * n + c.toNat) 0
  let full := Nat.pow 256 d.size
  let text := match d.kind with
    | 'c' => shownByte (bytes.headD 'x')
    | 'a' =>
      let k := n % 128
      if k = 127 then octetsOf "del" else ((controlNames[k]?).map octetsOf).getD [Char.ofNat k]
    | 'x' => widened false true (d.width - 1) (Nat.toDigits 16 n)
    | 'o' => widened false true (d.width - 1) (Nat.toDigits 8 n)
    | 'd' => if full / 2 ≤ n then Text.intNumeral ((n : Int) - full) else shown n
    | _ => shown n
  widened false false d.width text

/-- Rows with their places; a row like the one before it is left out, with a star for all of these. -/
def placedRows (all : Bool) (place : Nat → List Char) (showing : List Char → List Char) :
    Option (List Char) → Bool → Nat → List (List Char) → List (List Char)
  | _, _, _, [] => []
  | last, starred, position, row :: rows =>
    if !all && last = some row && !rows.isEmpty then
      (if starred then [] else [['*']]) ++ placedRows all place showing last true (position + row.length) rows
    else (place position ++ showing row) :: placedRows all place showing (some row) false (position + row.length) rows

def od : Utility :=
  let names := [("address-radix", 'A'), ("format", 't'), ("read-bytes", 'N'), ("skip-bytes", 'j'), ("width", 'w')]
  withGiven "od" 1 (accepting "A:t:N:j:w:vcbxodiS" names) fun g m =>
    let (found, m) := sources "od" g.words m
    let cs := found.flatMap (·.2)
    let skipped := ((g.value? 'j').map Text.numeral).getD 0
    let cs := (cs.drop skipped).take (((g.value? 'N').map Text.numeral).getD cs.length)
    let d := displayOf g
    let base := (g.value? 'A').getD ['o']
    let place (n : Nat) : List Char :=
      if base = ['n'] then []
      else if base = ['d'] then widened false true 7 (shown n)
      else if base = ['x'] then widened false true 6 (Nat.toDigits 16 n)
      else widened false true 7 (Nat.toDigits 8 n)
    let width := ((g.value? 'w').map Text.numeral).getD 16
    let showRow (row : List Char) : List Char := (rowsOf (max d.size 1) (row.length + 1) row).flatMap d.shows
    let rows := placedRows (g.has 'v') place showRow none false skipped (rowsOf (max width 1) (cs.length + 1) cs)
    if found.isEmpty then m
    else m.say (unlines (rows ++ if base = ['n'] then [] else [place (skipped + cs.length)]))

/-- The character for six bits. -/
def sixBits (n : Nat) : Char :=
  if n < 26 then Char.ofNat (65 + n)
  else if n < 52 then Char.ofNat (71 + n)
  else if n < 62 then Char.ofNat (n - 4)
  else if n = 62 then '+' else '/'

/-- Three bytes as four characters, with signs for those that are missing. -/
def encoded64 : List Char → List Char
  | a :: b :: c :: rest =>
    let n := (a.toNat * 256 + b.toNat) * 256 + c.toNat
    sixBits (n / 262144) :: sixBits (n / 4096 % 64) :: sixBits (n / 64 % 64) :: sixBits (n % 64)
      :: encoded64 rest
  | [a, b] =>
    let n := (a.toNat * 256 + b.toNat) * 256
    [sixBits (n / 262144), sixBits (n / 4096 % 64), sixBits (n / 64 % 64), '=']
  | [a] =>
    let n := a.toNat * 65536
    [sixBits (n / 262144), sixBits (n / 4096 % 64), '=', '=']
  | [] => []

/-- The six bits of a character. -/
def sixBitsOf? (c : Char) : Option Nat := (List.range 64).find? fun n => sixBits n = c

/-- The bytes of groups of four characters, and whether all of the text was of that kind. -/
def decoded64 : List Char → List Char × Bool
  | [] => ([], true)
  | a :: b :: c :: d :: rest =>
    let byte (n : Nat) : Char := Char.ofNat (n % 256)
    match sixBitsOf? a, sixBitsOf? b, sixBitsOf? c, sixBitsOf? d with
    | some x, some y, some z, some w =>
      let (more, whole) := decoded64 rest
      (byte (x * 4 + y / 16) :: byte (y * 16 + z / 4) :: byte (z * 64 + w) :: more, whole)
    | some x, some y, some z, none =>
      let own := [byte (x * 4 + y / 16), byte (y * 16 + z / 4)]
      if d = '=' then (let (more, whole) := decoded64 rest; (own ++ more, whole)) else (own, false)
    | some x, some y, none, _ =>
      let own := [byte (x * 4 + y / 16)]
      if c = '=' ∧ d = '=' then (let (more, whole) := decoded64 rest; (own ++ more, whole))
      else (own, false)
    | _, _, _, _ => ([], false)
  | _ => ([], false)

def base64 : Utility :=
  let names := [("decode", 'd'), ("wrap", 'w'), ("ignore-garbage", 'i')]
  withGiven "base64" 1 (accepting "dw:i" names) fun g m =>
    let (cs, m) := contents "base64" g.words m
    if g.has 'd' then
      let kept := cs.filter fun c => if g.has 'i' then (sixBitsOf? c).isSome || c = '=' else c ≠ '\n'
      let (bytes, whole) := decoded64 kept
      let m := m.say bytes
      if whole then m else m.refuse 1 (octetsOf "base64: invalid input")
    else
      let text := encoded64 cs
      let n := Text.numeral ((g.value? 'w').getD ['7', '6'])
      m.say (if text.isEmpty then [] else folded n false text.length text ++ if n = 0 then [] else ['\n'])

end Foreach.Shell.Utility

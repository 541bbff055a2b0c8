import Foreach.Number.Numeral
import Foreach.Text.Half
import Foreach.Value.Basic

/-!
The tokens of a JSON document.

Beside the numbers of the format there are `NaN`, `Infinity` and `-Infinity`. A text holds no raw
control character; two escapes that are a pair of halves are one character. Every token takes up at
least one character, so that scanning ends.
-/

namespace Foreach.Json

/-- A token: punctuation, a text, or any other scalar. -/
inductive Token where
  | openList
  | closeList
  | openMap
  | closeMap
  | comma
  | colon
  | text (s : String)
  | scalar (v : Value)

def isSpace (c : Char) : Bool := c = ' ' || c = '\t' || c = '\n' || c = '\r'

def hexValue (c : Char) : Option Nat :=
  if '0' ≤ c ∧ c ≤ '9' then some (c.toNat - '0'.toNat)
  else if 'a' ≤ c ∧ c ≤ 'f' then some (c.toNat - 'a'.toNat + 10)
  else if 'A' ≤ c ∧ c ≤ 'F' then some (c.toNat - 'A'.toNat + 10)
  else none

/-- The value of four hexadecimal digits. -/
def hexQuad (a b c d : Char) : Option Nat :=
  match hexValue a, hexValue b, hexValue c, hexValue d with
  | some a, some b, some c, some d => some (((a * 16 + b) * 16 + c) * 16 + d)
  | _, _, _, _ => none

/-- The character that a one-letter escape stands for. -/
def unescape (c : Char) : Option Char :=
  if c = '"' ∨ c = '\\' ∨ c = '/' then some c
  else if c = 'b' then some (Char.ofNat 0x08)
  else if c = 'f' then some (Char.ofNat 0x0c)
  else if c = 'n' then some '\n'
  else if c = 'r' then some '\r'
  else if c = 't' then some '\t'
  else none

/-- A piece of a text: a character, or a number written by a `\u` escape. -/
inductive Piece where
  | char (c : Char)
  | unit (n : Nat)

/-- The pieces up to the closing quote, and what follows it. -/
def scanPieces : List Char → Option (List Piece × List Char)
  | [] => none
  | '"' :: rest => some ([], rest)
  | '\\' :: 'u' :: a :: b :: c :: d :: rest =>
    match hexQuad a b c d, scanPieces rest with
    | some n, some (ps, r) => some (.unit n :: ps, r)
    | _, _ => none
  | '\\' :: e :: rest =>
    match unescape e, scanPieces rest with
    | some c, some (ps, r) => some (.char c :: ps, r)
    | _, _ => none
  | c :: rest =>
    if c.toNat < 0x20 then none
    else
      match scanPieces rest with
      | some (ps, r) => some (.char c :: ps, r)
      | none => none

/-- The characters of a text, pairs of halves joined. -/
def joinPieces : List Piece → List Char
  | [] => []
  | .char c :: ps => c :: joinPieces ps
  | .unit high :: .unit low :: ps =>
    if Text.isHighHalf high && Text.isLowHalf low then Text.charOfHalves high low :: joinPieces ps
    else Text.charOfCode high :: joinPieces (.unit low :: ps)
  | .unit n :: ps => Text.charOfCode n :: joinPieces ps

/-- The value of a number: a whole number unless there is a fraction or an exponent. -/
def valueOf (n : Numeral) : Value :=
  match n.fraction, n.exponent with
  | [], none => .int (Text.signed n.negative (Text.numeral n.whole))
  | _, _ => .float n.toBinary64

def takeSign : List Char → Bool × List Char
  | '-' :: rest => (true, rest)
  | cs => (false, cs)

/-- The digits after a point, if at least one follows it. -/
def takeFraction : List Char → List Char × List Char
  | '.' :: rest =>
    match rest.takeWhile Text.isDigit with
    | [] => ([], '.' :: rest)
    | digits => (digits, rest.dropWhile Text.isDigit)
  | cs => ([], cs)

/-- The sign of an exponent, which may be a plus. -/
def takeExponentSign : List Char → Bool × List Char
  | '+' :: rest => (false, rest)
  | cs => takeSign cs

/-- An exponent, if at least one digit follows the mark and its sign. -/
def takeExponent (cs : List Char) : Option Int × List Char :=
  match cs with
  | [] => (none, [])
  | mark :: rest =>
    if mark = 'e' ∨ mark = 'E' then
      let (negative, body) := takeExponentSign rest
      match body.takeWhile Text.isDigit with
      | [] => (none, mark :: rest)
      | digits =>
        let magnitude : Int := Text.numeral digits
        (some (if negative then -magnitude else magnitude), body.dropWhile Text.isDigit)
    else (none, mark :: rest)

/-- A number at the start of the text. The whole part has no zero in front. -/
def scanNumeral (cs : List Char) : Option (Numeral × List Char) :=
  let (negative, body) := takeSign cs
  match body.takeWhile Text.isDigit with
  | [] => none
  | '0' :: _ :: _ => none
  | whole =>
    let (fraction, rest) := takeFraction (body.dropWhile Text.isDigit)
    let (exponent, rest) := takeExponent rest
    some (⟨negative, whole, fraction, exponent⟩, rest)

/-- The text after a word, if it starts with the word. -/
def afterWord : List Char → List Char → Option (List Char)
  | [], rest => some rest
  | w :: ws, c :: rest => if w = c then afterWord ws rest else none
  | _ :: _, [] => none

/-- The scalars written as words. -/
def words : List (List Char × Value) :=
  [("null".toList, .null), ("true".toList, .bool true), ("false".toList, .bool false),
    ("NaN".toList, .float .nan), ("Infinity".toList, .float (.infinity false)),
    ("-Infinity".toList, .float (.infinity true))]

def scanWord (cs : List Char) : Option (Token × List Char) :=
  words.findSome? fun (word, v) => (afterWord word cs).map fun rest => (.scalar v, rest)

def punctuation (c : Char) : Option Token :=
  if c = '[' then some .openList
  else if c = ']' then some .closeList
  else if c = '{' then some .openMap
  else if c = '}' then some .closeMap
  else if c = ',' then some .comma
  else if c = ':' then some .colon
  else none

/-- The token at the start of the text, and what follows it. -/
def scanToken (cs : List Char) : Option (Token × List Char) :=
  match cs with
  | [] => none
  | c :: rest =>
    match punctuation c with
    | some t => some (t, rest)
    | none =>
      if c = '"' then
        (scanPieces rest).map fun (ps, r) => (.text (String.ofList (joinPieces ps)), r)
      else
        match scanWord cs with
        | some found => some found
        | none => (scanNumeral cs).map fun (n, r) => (.scalar (valueOf n), r)

theorem length_dropWhile_le (p : Char → Bool) (cs : List Char) :
    (cs.dropWhile p).length ≤ cs.length :=
  (List.dropWhile_suffix p).length_le

theorem length_dropWhile_lt {p : Char → Bool} {cs : List Char} (h : cs.takeWhile p ≠ []) :
    (cs.dropWhile p).length < cs.length := by
  have hsplit := congrArg List.length (List.takeWhile_append_dropWhile (p := p) (l := cs))
  have hpos := List.length_pos_iff.2 h
  simp only [List.length_append] at hsplit
  omega

theorem scanPieces_length {cs ps r} (h : scanPieces cs = some (ps, r)) : r.length < cs.length := by
  fun_induction scanPieces cs generalizing ps r <;> simp_all <;> grind

theorem afterWord_length {word cs r} (h : afterWord word cs = some r) :
    r.length + word.length = cs.length := by
  fun_induction afterWord word cs <;> grind

theorem takeSign_length (cs : List Char) : (takeSign cs).2.length ≤ cs.length := by
  unfold takeSign
  split <;> simp

theorem takeFraction_length (cs : List Char) : (takeFraction cs).2.length ≤ cs.length := by
  unfold takeFraction
  split
  · rename_i rest
    have := length_dropWhile_le Text.isDigit rest
    split <;> simp only [List.length_cons] <;> omega
  · simp

theorem takeExponentSign_length (cs : List Char) :
    (takeExponentSign cs).2.length ≤ cs.length := by
  unfold takeExponentSign
  split
  · simp
  · exact takeSign_length _

theorem takeExponent_length (cs : List Char) : (takeExponent cs).2.length ≤ cs.length := by
  unfold takeExponent
  split
  · simp
  · rename_i mark rest
    have hsign := takeExponentSign_length rest
    have hdrop := length_dropWhile_le Text.isDigit (takeExponentSign rest).2
    split
    · dsimp only
      split
      · simp
      · simp only [List.length_cons]
        omega
    · simp

theorem scanNumeral_length {cs n r} (h : scanNumeral cs = some (n, r)) : r.length < cs.length := by
  unfold scanNumeral at h
  have hsign := takeSign_length cs
  dsimp only at h
  split at h
  · simp at h
  · simp at h
  · rename_i hdigits _
    have hdrop : ((takeSign cs).2.dropWhile Text.isDigit).length < (takeSign cs).2.length :=
      length_dropWhile_lt (by simp_all)
    have hfraction := takeFraction_length ((takeSign cs).2.dropWhile Text.isDigit)
    have hexponent := takeExponent_length
      (takeFraction ((takeSign cs).2.dropWhile Text.isDigit)).2
    simp only [Option.some.injEq, Prod.mk.injEq] at h
    obtain ⟨_, hr⟩ := h
    subst hr
    omega

theorem scanWord_length {cs t r} (h : scanWord cs = some (t, r)) : r.length < cs.length := by
  unfold scanWord at h
  obtain ⟨⟨word, v⟩, hmem, hword⟩ := List.exists_of_findSome?_eq_some h
  obtain ⟨rest, hrest, heq⟩ := Option.map_eq_some_iff.1 hword
  have hlen := afterWord_length hrest
  have hpos : 0 < word.length := by
    simp only [words, List.mem_cons, Prod.mk.injEq, List.not_mem_nil, or_false] at hmem
    rcases hmem with h | h | h | h | h | h <;> simp [h.1]
  simp only [Prod.mk.injEq] at heq
  have : rest = r := heq.2
  subst this
  omega

/-- Scanning a token takes up at least one character. -/
theorem scanToken_length {cs t r} (h : scanToken cs = some (t, r)) : r.length < cs.length := by
  unfold scanToken at h
  split at h
  · simp at h
  · split at h
    · simp_all
    · split at h
      · obtain ⟨⟨ps, rest⟩, hscan, heq⟩ := Option.map_eq_some_iff.1 h
        have := scanPieces_length hscan
        simp only [Prod.mk.injEq] at heq
        obtain ⟨_, hr⟩ := heq
        subst hr
        simp only [List.length_cons]
        omega
      · split at h
        · rename_i hword
          simp only [Option.some.injEq] at h
          subst h
          exact scanWord_length hword
        · obtain ⟨⟨n, rest⟩, hscan, heq⟩ := Option.map_eq_some_iff.1 h
          have := scanNumeral_length hscan
          simp only [Prod.mk.injEq] at heq
          obtain ⟨_, rfl⟩ := heq
          exact this

/-- The tokens of a whole text; spaces may stand between any two. -/
def tokens (cs : List Char) : Option (List Token) :=
  match _hspace : cs.dropWhile isSpace with
  | [] => some []
  | c :: rest =>
    match _hscan : scanToken (c :: rest) with
    | none => none
    | some (t, r) =>
      match tokens r with
      | some ts => some (t :: ts)
      | none => none
termination_by cs.length
decreasing_by
  have hdrop := length_dropWhile_le isSpace cs
  have htoken := scanToken_length _hscan
  rw [_hspace] at hdrop
  omega

end Foreach.Json

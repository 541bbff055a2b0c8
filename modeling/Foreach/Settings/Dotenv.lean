import Foreach.Text.Blank
import Foreach.Text.Digits
import Foreach.Text.Split

/-!
Environment files: a variable and its value on each line.

A value may stand in quotes, which may hold line ends; a value without quotes ends before a blank and a
hash. A line that cannot be read is passed over. `${name}` in a value stands for an earlier variable or
one of the environment, and `${name:-text}` for the text where there is none.
-/

namespace Foreach.Dotenv

/-- A blank that does not end the line. -/
def isInlineBlank (c : Char) : Bool := Text.isBlank c && c != '\r' && c != '\n'

def isLineEnd (c : Char) : Bool := c = '\r' || c = '\n'

def skipInline (cs : List Char) : List Char := cs.dropWhile isInlineBlank

/-- The text after the end of the present line. -/
def afterLine (cs : List Char) : List Char :=
  match cs.dropWhile fun c => !isLineEnd c with
  | '\r' :: '\n' :: rest => rest
  | _ :: rest => rest
  | [] => []

/-- The text after `export` and the blanks behind it, if it starts with them. -/
def skipExport (cs : List Char) : List Char :=
  match cs with
  | 'e' :: 'x' :: 'p' :: 'o' :: 'r' :: 't' :: c :: rest =>
    if isInlineBlank c then skipInline rest else cs
  | _ => cs

/-- A character that may stand in a name without quotes. -/
def isNameChar (c : Char) : Bool := c != '=' && c != '#' && !Text.isBlank c

/-- The name of a variable and the text behind it; a comment has none. -/
def name? : List Char → Option (Option (List Char) × List Char)
  | '#' :: rest => some (none, '#' :: rest)
  | '\'' :: rest =>
    let name := rest.takeWhile (· != '\'')
    match rest.dropWhile (· != '\'') with
    | _ :: rest => if name = [] then none else some (some name, rest)
    | [] => none
  | cs =>
    let name := cs.takeWhile isNameChar
    if name = [] then none else some (some name, cs.dropWhile isNameChar)

/-- The characters up to the first quote that no backslash escapes, and the text behind that quote. -/
def untilBareQuote (q : Char) : List Char → Option (List Char × List Char)
  | [] => none
  | '\\' :: c :: rest => (untilBareQuote q rest).map fun (s, r) => ('\\' :: c :: s, r)
  | c :: rest =>
    if c = q then some ([], rest) else (untilBareQuote q rest).map fun (s, r) => (c :: s, r)

/-- The characters before the last quote, and the text behind it. -/
def untilLastQuote (q : Char) (cs : List Char) : Option (List Char × List Char) :=
  let behind := cs.reverse.takeWhile (· != q)
  if behind.length < cs.length then
    some (cs.take (cs.length - behind.length - 1), behind.reverse)
  else none

/-- The characters up to a closing quote, and the text behind it. An escaped quote does not close, unless
all that are left are such: then the last of them does. -/
def quoted (q : Char) (cs : List Char) : Option (List Char × List Char) :=
  untilBareQuote q cs <|> untilLastQuote q cs

/-- What a backslash and a letter stand for in double quotes. -/
def escape? (c : Char) : Option Char :=
  if c = '\\' ∨ c = '\'' ∨ c = '"' then some c
  else if c = 'a' then some (Char.ofNat 7)
  else if c = 'b' then some (Char.ofNat 8)
  else if c = 'f' then some (Char.ofNat 12)
  else if c = 'n' then some '\n'
  else if c = 'r' then some '\r'
  else if c = 't' then some '\t'
  else if c = 'v' then some (Char.ofNat 11)
  else none

/-- What a backslash and a character stand for in single quotes. -/
def quoteEscape? (c : Char) : Option Char := if c = '\\' ∨ c = '\'' then some c else none

/-- A text with its escapes replaced; a backslash that begins none stays. -/
def unescape (escape : Char → Option Char) : List Char → List Char
  | '\\' :: c :: rest =>
    match escape c with
    | some d => d :: unescape escape rest
    | none => '\\' :: unescape escape (c :: rest)
  | c :: rest => c :: unescape escape rest
  | [] => []

/-- A text before the first blank that has a hash behind it. -/
def dropComment : List Char → List Char
  | [] => []
  | c :: rest =>
    if Text.isBlank c && (rest.dropWhile Text.isBlank).head? == some '#' then []
    else c :: dropComment rest

/-- The value of a variable behind its sign, and the text behind it. -/
def value? (cs : List Char) : Option (List Char × List Char) :=
  match skipInline cs with
  | '\'' :: rest => (quoted '\'' rest).map fun (s, r) => (unescape quoteEscape? s, r)
  | '"' :: rest => (quoted '"' rest).map fun (s, r) => (unescape escape? s, r)
  | _ =>
    let line := cs.takeWhile fun c => !isLineEnd c
    some (Text.strip (dropComment line), cs.dropWhile fun c => !isLineEnd c)

/-- A variable and its value, if it has one. -/
structure Binding where
  name : String
  value : Option String

/-- The text behind blanks and a comment, if the line ends there. -/
def lineEnd? (cs : List Char) : Option (List Char) :=
  let cs := skipInline cs
  let cs := if cs.head? = some '#' then cs.dropWhile fun c => !isLineEnd c else cs
  match cs with
  | [] => some []
  | c :: _ => if isLineEnd c then some (afterLine cs) else none

/-- A line, and the text behind it. -/
def binding (cs : List Char) : Option Binding × List Char :=
  match name? (skipExport cs) with
  | none => (none, afterLine cs)
  | some (name, r) =>
    let r := skipInline r
    let found : Option (Option (List Char) × List Char) := match r with
      | '=' :: v => (value? v).map fun (s, r) => (some s, r)
      | r => some (none, r)
    match found with
    | none => (none, afterLine r)
    | some (value, r) =>
      match lineEnd? r with
      | none => (none, afterLine r)
      | some rest =>
        (name.map fun n => ⟨String.ofList n, value.map String.ofList⟩, rest)

/-- The lines of a text; every line takes something away from it. -/
def bindings (cs : List Char) : List Binding :=
  let body := cs.dropWhile Text.isBlank
  if body = [] then []
  else
    let (b, rest) := binding body
    if rest.length < cs.length then b.toList ++ bindings rest else b.toList
termination_by cs.length

/-- A piece of a value: a character, or a variable with what stands for it where there is none. -/
inductive Piece where
  | literal (c : Char)
  | variable (name fallback : List Char)

/-- The variable between braces, if what is there names one. -/
def reference? (body : List Char) : Option Piece :=
  let name := body.takeWhile (· != ':')
  match body.dropWhile (· != ':') with
  | [] => some (.variable name [])
  | ':' :: '-' :: fallback => some (.variable name fallback)
  | _ => none

/-- The pieces of a value, a number of characters being left to skip. -/
def pieces : Nat → List Char → List Piece
  | _, [] => []
  | skip + 1, _ :: rest => pieces skip rest
  | 0, c :: rest =>
    match c, rest with
    | '$', '{' :: more =>
      let body := more.takeWhile (· != '}')
      if body.length < more.length then
        match reference? body with
        | some p => p :: pieces (body.length + 2) rest
        | none => .literal c :: pieces 0 rest
      else .literal c :: pieces 0 rest
    | _, _ => .literal c :: pieces 0 rest

/-- A value with its variables replaced. -/
def expand (known : List (String × String)) (s : String) : String :=
  String.ofList ((pieces 0 s.toList).flatMap fun p =>
    match p with
    | .literal c => [c]
    | .variable name fallback => ((known.lookup (String.ofList name)).map String.toList).getD fallback)

/-- The variables of a file with their values, `known` being those that a value may speak of. -/
def resolve (known : List (String × String)) : List Binding → List (String × Option String)
  | [] => []
  | b :: rest =>
    let value := b.value.map (expand known)
    (b.name, value) :: resolve ((b.name, value.getD "") :: known) rest

/-- Variables with one more: of one name the first place and the last value stay. -/
def assign (vars : List (String × Option String)) (name : String) (value : Option String) :
    List (String × Option String) :=
  if vars.any fun (n, _) => n = name then
    vars.map fun (n, v) => (n, if n = name then value else v)
  else vars ++ [(name, value)]

/-- A text without a byte order mark in front. -/
def dropByteOrderMark (cs : List Char) : List Char :=
  if cs.head?.map Char.toNat = some 0xfeff then cs.drop 1 else cs

/-- The variables of an environment file; one that stands alone has no value. -/
def read (environment : List (String × String)) (text : String) : List (String × Option String) :=
  (resolve environment.reverse (bindings (Text.unifyLineEnds (dropByteOrderMark text.toList)))).foldl
    (fun vars (name, value) => assign vars name value) []

end Foreach.Dotenv

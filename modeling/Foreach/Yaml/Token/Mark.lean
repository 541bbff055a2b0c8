import Foreach.Json.Token
import Foreach.Text.Utf8
import Foreach.Yaml.Token.Basic

/-!
Anchors, aliases, tags and directives.
-/

namespace Foreach.Yaml.Mark

/-- A character of a name. -/
def isName (c : Char) : Bool :=
  ('0' ≤ c && c ≤ '9') || ('A' ≤ c && c ≤ 'Z') || ('a' ≤ c && c ≤ 'z') || c = '-' || c = '_'

/-- What may stand right behind a name. -/
def endsName (cs : List Char) : Bool :=
  atWordEnd cs
    || (cs.head?.map ['?', ':', ',', ']', '}', '%', '@', Char.ofNat 0x60].contains).getD false

/-- The name of an anchor or an alias, and what follows it. -/
def name (cs : List Char) : Except Defect (List Char × List Char) :=
  let rest := cs.dropWhile isName
  match cs.takeWhile isName with
  | [] => .error .malformed
  | found => if endsName rest then .ok (found, rest) else .error .malformed

/-- A character of the text of a tag. -/
def isTagText (c : Char) : Bool :=
  isName c || [';', '/', '?', ':', '@', '&', '=', '+', '$', ',', '.', '!', '~', '*', '\'', '(', ')',
    '[', ']'].contains c

/-- The bytes that are written with percent signs, and what follows them. -/
def escapedBytes : Nat → List Char → Except Defect (List UInt8 × List Char)
  | 0, _ => .error .malformed
  | fuel + 1, '%' :: a :: b :: rest =>
    match Json.hexValue a, Json.hexValue b with
    | some x, some y =>
      (escapedBytes fuel rest).map fun (bs, rest) => (UInt8.ofNat (16 * x + y) :: bs, rest)
    | _, _ => .error .malformed
  | _, cs => if cs.head? = some '%' then .error .malformed else .ok ([], cs)

/-- The text of a tag as far as it goes, and what follows it. -/
def tagText : Nat → List Char → Except Defect (List Char × List Char)
  | 0, _ => .error .malformed
  | fuel + 1, cs =>
    match cs with
    | [] => .ok ([], [])
    | c :: rest =>
      if c = '%' then
        match escapedBytes (cs.length + 1) cs with
        | .error d => .error d
        | .ok (bs, rest) =>
          match Utf8.decode bs with
          | none => .error .malformed
          | some text => (tagText fuel rest).map fun (more, rest) => (text ++ more, rest)
      else if isTagText c then (tagText fuel rest).map fun (more, rest) => (c :: more, rest)
      else .ok ([], cs)

/-- The text of a tag, which must not be empty. -/
def someTagText (cs : List Char) : Except Defect (List Char × List Char) :=
  match tagText (cs.length + 1) cs with
  | .error d => .error d
  | .ok ([], rest) => if rest.length < cs.length then .ok ([], rest) else .error .malformed
  | .ok found => .ok found

/-- The handle of a tag: one exclamation mark, or a word between two. -/
def handle (cs : List Char) : Except Defect (List Char × List Char) :=
  match cs with
  | '!' :: ' ' :: rest => .ok (['!'], ' ' :: rest)
  | '!' :: rest =>
    match rest.dropWhile isName with
    | '!' :: after => .ok ('!' :: (rest.takeWhile isName ++ ['!']), after)
    | _ => .error .malformed
  | _ => .error .malformed

/-- A tag, at its exclamation mark. -/
def tag (cs : List Char) : Except Defect (Token × List Char) :=
  let ended (t : Token) (rest : List Char) : Except Defect (Token × List Char) :=
    if atSpace rest then .ok (t, rest) else .error .malformed
  match cs with
  | _ :: '<' :: rest =>
    match someTagText rest with
    | .ok (text, '>' :: rest) => ended (.tag none text) rest
    | .ok _ => .error .malformed
    | .error d => .error d
  | _ :: rest =>
    if atWordEnd rest then ended (.tag none ['!']) rest
    else if (rest.takeWhile fun c => !(c = ' ' || isBreak c)).contains '!' then
      match handle cs with
      | .error d => .error d
      | .ok (h, rest) =>
        match someTagText rest with
        | .error d => .error d
        | .ok (text, rest) => ended (.tag (some h) text) rest
    else
      match someTagText rest with
      | .error d => .error d
      | .ok (text, rest) => ended (.tag (some ['!']) text) rest
  | [] => .error .malformed

/-- The two numbers of a version. -/
def version (cs : List Char) : Except Defect (Token × List Char) :=
  match cs.takeWhile Text.isDigit, cs.dropWhile Text.isDigit with
  | major@(_ :: _), '.' :: rest =>
    match rest.takeWhile Text.isDigit, rest.dropWhile Text.isDigit with
    | _ :: _, rest =>
      if atSpace rest then .ok (.version (Text.numeral major), rest) else .error .malformed
    | [], _ => .error .malformed
  | _, _ => .error .malformed

/-- A handle and what it stands for. -/
def handleMeaning (cs : List Char) : Except Defect (Token × List Char) :=
  match handle cs with
  | .error d => .error d
  | .ok (name, rest) =>
    if rest.head? != some ' ' then .error .malformed
    else
      match someTagText (dropSpaces rest) with
      | .error d => .error d
      | .ok (text, rest) =>
        if atSpace rest then .ok (.handle name text, rest) else .error .malformed

/-- A directive behind its percent sign, with the line break at its end. -/
def directive (cs : List Char) : Except Defect (Token × List Char) :=
  let rest := cs.dropWhile isName
  let found : Except Defect (Token × List Char) :=
    match String.ofList (cs.takeWhile isName) with
    | "" => .error .malformed
    | "YAML" => if atSpace rest then version (dropSpaces rest) else .error .malformed
    | "TAG" => if atSpace rest then handleMeaning (dropSpaces rest) else .error .malformed
    | _ => if atSpace rest then .ok (.directive, dropLine rest) else .error .malformed
  match found with
  | .error d => .error d
  | .ok (t, rest) =>
    match endOfLine? rest with
    | some rest => .ok (t, rest)
    | none => .error .malformed

end Foreach.Yaml.Mark

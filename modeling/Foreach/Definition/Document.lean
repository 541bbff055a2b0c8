import Foreach.Definition.Basic
import Foreach.Fault

/-!
Definitions as documents.

A document holds only what JSON can hold: null, truth values, whole and finite numbers, texts, lists,
and mappings with text keys. Values of other kinds take the nearest such form: a tuple becomes a list,
bytes become the text that they encode, a day and a moment their written form, a number that is not
finite becomes null, and a key becomes its text. Bytes that are not UTF-8 have no document form, nor
has a key with half a character in it, nor a value that is nested too deeply.
-/

namespace Foreach
namespace Document

/-- How deep a value may be nested below a spec. -/
def depthLimit : Nat := 255

/-- Texts with commas between them. -/
def joinedKeys : List (List Char) → List Char
  | [] => []
  | [k] => k
  | k :: ks => k ++ ',' :: joinedKeys ks

/-- The text that bytes encode; none encode a half. -/
def bytesText (bs : List UInt8) : Except Fault (List Char) :=
  match Utf8.decode bs with
  | none => .error .undecodable
  | some cs => if cs.any Text.isHalf then .error .undecodable else .ok cs

mutual

/-- The text of a key; the texts of a tuple's parts are put in a row. -/
def keyText : Key → Except Fault (List Char)
  | .null => .ok "None".toList
  | .bool b => .ok (if b then "true".toList else "false".toList)
  | .int n => .ok (Text.intNumeral n)
  | .float x => .ok (if x.isFinite then FloatText.plain.render x else "None".toList)
  | .text s =>
    match Utf8.encode? s.toList with
    | .error m => .error (.unencodable m)
    | .ok _ => .ok s.toList
  | .bytes bs => bytesText bs
  | .date d => .ok d.text
  | .moment t => .ok t.document
  | .tuple ks => (keyTexts ks).map joinedKeys

def keyTexts : List Key → Except Fault (List (List Char))
  | [] => .ok []
  | k :: ks =>
    match keyText k with
    | .error f => .error f
    | .ok t => (keyTexts ks).map (t :: ·)

end

mutual

/-- The document form of a value that may be nested this deep. -/
def ofValue (room : Nat) (v : Value) : Except Fault Value :=
  if room = 0 then .error (.badValue "")
  else
    match v with
    | .null => .ok .null
    | .bool b => .ok (.bool b)
    | .int n => .ok (.int n)
    | .float x => .ok (if x.isFinite then .float x else .null)
    | .text s => .ok (.text s)
    | .bytes bs => (bytesText bs).map fun cs => .text (String.ofList cs)
    | .date d => .ok (.text (String.ofList d.text))
    | .moment t => .ok (.text (String.ofList t.document))
    | .list vs => (ofValues (room - 1) vs).map .list
    | .tuple vs => (ofValues (room - 1) vs).map .list
    | .map es => (ofEntries (room - 1) es).map fun entries => .map (Mapping.ofEntries entries)

def ofValues (room : Nat) : List Value → Except Fault (List Value)
  | [] => .ok []
  | v :: vs =>
    match ofValue room v with
    | .error f => .error f
    | .ok w => (ofValues room vs).map (w :: ·)

def ofEntries (room : Nat) : List (Key × Value) → Except Fault (List (Key × Value))
  | [] => .ok []
  | (k, v) :: es =>
    match keyText k with
    | .error f => .error f
    | .ok t =>
      match ofValue room v with
      | .error f => .error f
      | .ok w => (ofEntries room es).map ((.text (String.ofList t), w) :: ·)

end

/-- A text in which each half of a character that stands alone is three marks of replacement. -/
def mended (s : String) : String :=
  String.ofList (s.toList.flatMap fun c =>
    if Text.isHalf c then List.replicate 3 Utf8.replacement else [c])

/-- The document form of a spec, whose keys are texts. -/
def ofSpec : Mapping → Except Fault Mapping
  | [] => .ok []
  | (k, v) :: es =>
    match ofValue depthLimit v with
    | .error f => .error f
    | .ok w => (ofSpec es).map ((.text (mended k.display), w) :: ·)

end Document

namespace Definition

/-- The document of a definition. -/
def document (d : Definition) : Except Fault Value :=
  (Document.ofSpec d.spec).map fun spec =>
    .record [("name", .text d.name), ("type", .text d.type),
      ("spec", .map (Mapping.ofEntries spec)), ("description", d.description.elim .null .text),
      ("created_at", .text d.created.document), ("updated_at", .text d.updated.document)]

end Definition
end Foreach

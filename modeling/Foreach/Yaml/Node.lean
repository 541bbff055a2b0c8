import Foreach.Yaml.Tag
import Foreach.Yaml.Token.Basic

/-!
The nodes of a YAML document.

A node has a tag, which says what kind of value it stands for; a node without one has the tag that its
form suggests.
-/

namespace Foreach.Yaml

/-- A node. -/
inductive Node where
  | scalar (tag : Tag) (text : List Char)
  | list (tag : Tag) (items : List Node)
  | map (tag : Tag) (entries : List (Node × Node))
  /-- An alias inside the very node that it stands for. -/
  | loop

instance : Inhabited Node := ⟨.loop⟩

namespace Node

/-- The node where nothing is written. -/
def empty : Node := .scalar .null []

/-- Tokens of which some are read, with what handles and anchors stand for. An anchor has no node while
its own node is being read. -/
structure Source where
  tokens : List Token
  handles : List (List Char × List Char)
  anchors : List (List Char × Option Node)

/-- The handles that need no directive. -/
def standardHandles : List (List Char × List Char) :=
  [(['!'], ['!']), (['!', '!'], Tag.standard.toList)]

/-- A step of reading nodes. -/
abbrev Read := StateT Source (Except Defect)

namespace Read

/-- Stops at a token that does not fit. -/
def fail {α : Type} : Read α := fun s =>
  match s.tokens with
  | .broken d :: _ => .error d
  | _ => .error .malformed

/-- The next token; it stays. -/
def peek : Read (Option Token) := fun s => .ok (s.tokens.head?, s)

def advance : Read Unit := modify fun s => { s with tokens := s.tokens.tail }

/-- Takes the next token if it is this one, and tells whether it is. -/
def accept (t : Token) : Read Bool := fun s =>
  if s.tokens.head? = some t then .ok (true, { s with tokens := s.tokens.tail }) else .ok (false, s)

/-- Whether the next token is one of these. -/
def isNext (ts : List Token) : Read Bool := do
  match ← peek with
  | some t => return ts.contains t
  | none => return false

/-- Whether another part of a collection in brackets may come: a comma is between two of them, and none is
in front of the first. -/
def separated (first : Bool) : Read Bool := if first then return true else accept .comma

/-- The node of an alias. -/
def aliased (name : List Char) : Read Node := do
  match (← get).anchors.lookup name with
  | some (some n) => return n
  | some none => return .loop
  | none => fail

/-- Gives an anchor its node, or none yet. -/
def setAnchor (anchor : Option (List Char)) (n : Option Node) : Read Unit :=
  match anchor with
  | none => return
  | some name => modify fun s => { s with anchors := (name, n) :: s.anchors }

/-- An anchor may stand only once in a document. -/
def newAnchor (anchor : Option (List Char)) : Read Unit := do
  match anchor with
  | none => return
  | some name => if ((← get).anchors.lookup name).isSome then fail else setAnchor anchor none

/-- The full name of a tag. -/
def tagName (handle : Option (List Char)) (suffix : List Char) : Read (List Char) := do
  match handle with
  | none => return suffix
  | some h =>
    match (← get).handles.lookup h with
    | some meaning => return meaning ++ suffix
    | none => fail

/-- The anchor and the tag in front of a node, in either order. -/
def properties : Read (Option (List Char) × Option (List Char)) := do
  match ← peek with
  | some (.anchor name) =>
    advance
    match ← peek with
    | some (.tag handle suffix) =>
      advance
      return (some name, some (← tagName handle suffix))
    | _ => return (some name, none)
  | some (.tag handle suffix) =>
    advance
    match ← peek with
    | some (.anchor name) =>
      advance
      return (some name, some (← tagName handle suffix))
    | _ => return (none, some (← tagName handle suffix))
  | _ => return (none, none)

/-- The tag of a scalar. One that is not quoted, or is marked as such, has the tag of its text. -/
def scalarTag (tag : Option (List Char)) (text : List Char) (plain : Bool) : Tag :=
  match tag with
  | none => if plain then Tag.ofPlain text else .text
  | some ['!'] => Tag.ofPlain text
  | some name => .ofName name

/-- The tag of a collection. -/
def collectionTag (tag : Option (List Char)) (usual : Tag) : Tag :=
  match tag with
  | none | some ['!'] => usual
  | some name => .ofName name

/-- A node that is not written, behind an anchor or a tag. -/
def blank (anchor tag : Option (List Char)) : Read Node :=
  if anchor.isSome || tag.isSome then return .scalar (scalarTag tag [] true) [] else fail

mutual

/-- A node; `block` tells whether indentation may make it a collection, and `loose` whether the items
of a list may stand right here. -/
def node (block loose : Bool) : Nat → Read Node
  | 0 => fail
  | fuel + 1 => do
    match ← peek with
    | some (.alias name) =>
      advance
      aliased name
    | _ =>
      let (anchor, tag) ← properties
      newAnchor anchor
      let n ← content block loose anchor tag fuel
      setAnchor anchor n
      return n

/-- What follows the anchor and the tag of a node. -/
def content (block loose : Bool) (anchor tag : Option (List Char)) : Nat → Read Node
  | 0 => fail
  | fuel + 1 => do
    match ← peek with
    | some (.scalar text plain) =>
      advance
      return .scalar (scalarTag tag text plain) text
    | some .openList =>
      advance
      return .list (collectionTag tag .list) (← flowItems true fuel)
    | some .openMap =>
      advance
      return .map (collectionTag tag .map) (← flowEntries true fuel)
    | some .item =>
      if loose then return .list (collectionTag tag .list) (← looseItems fuel)
      else blank anchor tag
    | some .blockList =>
      if block then
        advance
        return .list (collectionTag tag .list) (← blockItems fuel)
      else blank anchor tag
    | some .blockMap =>
      if block then
        advance
        return .map (collectionTag tag .map) (← blockEntries fuel)
      else blank anchor tag
    | _ => blank anchor tag

/-- The items of a list by indentation. -/
def blockItems : Nat → Read (List Node)
  | 0 => fail
  | fuel + 1 => do
    if ← accept .item then
      let n ← if ← isNext [.item, .blockEnd] then pure empty else node true false fuel
      return n :: (← blockItems fuel)
    else if ← accept .blockEnd then return []
    else fail

/-- The items of a list that stands no deeper than its key. -/
def looseItems : Nat → Read (List Node)
  | 0 => fail
  | fuel + 1 => do
    if ← accept .item then
      let n ← if ← isNext [.item, .key, .value, .blockEnd] then pure empty else node true false fuel
      return n :: (← looseItems fuel)
    else return []

/-- The entries of a mapping by indentation. -/
def blockEntries : Nat → Read (List (Node × Node))
  | 0 => fail
  | fuel + 1 => do
    if ← accept .key then
      let k ← if ← isNext [.key, .value, .blockEnd] then pure empty else node true true fuel
      let v ← blockValue fuel
      return (k, v) :: (← blockEntries fuel)
    else if ← accept .blockEnd then return []
    else fail

def blockValue : Nat → Read Node
  | 0 => fail
  | fuel + 1 => do
    if ← accept .value then
      if ← isNext [.key, .value, .blockEnd] then return empty else node true true fuel
    else return empty

/-- The items between brackets. -/
def flowItems (first : Bool) : Nat → Read (List Node)
  | 0 => fail
  | fuel + 1 => do
    if ← accept .closeList then return []
    else if !(← separated first) then fail
    else if ← accept .key then
      let k ← flowKey .closeList fuel
      let v ← flowValue .closeList fuel
      return .map .map [(k, v)] :: (← flowItems false fuel)
    else if ← accept .closeList then return []
    else
      let n ← node false false fuel
      return n :: (← flowItems false fuel)

/-- The entries between braces. -/
def flowEntries (first : Bool) : Nat → Read (List (Node × Node))
  | 0 => fail
  | fuel + 1 => do
    if ← accept .closeMap then return []
    else if !(← separated first) then fail
    else if ← accept .key then
      let k ← flowKey .closeMap fuel
      let v ← flowValue .closeMap fuel
      return (k, v) :: (← flowEntries false fuel)
    else if ← accept .closeMap then return []
    else
      let k ← node false false fuel
      return (k, empty) :: (← flowEntries false fuel)

/-- A key in front of its colon, between brackets. -/
def flowKey (closing : Token) : Nat → Read Node
  | 0 => fail
  | fuel + 1 => do
    if ← isNext [.value, .comma, closing] then return empty else node false false fuel

def flowValue (closing : Token) : Nat → Read Node
  | 0 => fail
  | fuel + 1 => do
    if ← accept .value then
      if ← isNext [.comma, closing] then return empty else node false false fuel
    else return empty

end

/-- The directives in front of a document. -/
def directives (seenVersion : Bool) : Nat → Read Unit
  | 0 => fail
  | fuel + 1 => do
    match ← peek with
    | some (.version major) =>
      if seenVersion ∨ major ≠ 1 then fail
      else
        advance
        directives true fuel
    | some (.handle name meaning) =>
      if ((← get).handles.lookup name).isSome then fail
      else
        advance
        modify fun s => { s with handles := (name, meaning) :: s.handles }
        directives seenVersion fuel
    | some .directive =>
      advance
      directives seenVersion fuel
    | _ => modify fun s => { s with handles := s.handles ++ standardHandles }

def skipEnds : Nat → Read Unit
  | 0 => return
  | fuel + 1 => do if ← accept .documentEnd then skipEnds fuel else return

/-- A document that starts with its mark, if there is one. -/
def markedDocument (fuel : Nat) : Read (Option Node) := do
  skipEnds fuel
  if (← get).tokens = [] then return none
  else
    directives false fuel
    if ← accept .documentStart then
      match ← peek with
      | none | some .directive | some (.version _) | some (.handle _ _) | some .documentStart
      | some .documentEnd => return some empty
      | _ => return some (← node true false fuel)
    else fail

/-- The first document, which needs no mark. -/
def document (fuel : Nat) : Read (Option Node) := do
  match ← peek with
  | none | some .directive | some (.version _) | some (.handle _ _) | some .documentStart =>
    markedDocument fuel
  | _ =>
    modify fun s => { s with handles := standardHandles }
    return some (← node true false fuel)

/-- The only document; nothing but marks may follow it. -/
def single (fuel : Nat) : Read (Option Node) := do
  let n ← document fuel
  skipEnds fuel
  if (← get).tokens = [] then return n else fail

end Read

/-- The node of the only document in a row of tokens, if there is a document. -/
def ofTokens (ts : List Token) : Except Defect (Option Node) :=
  (Read.single (4 * ts.length + 8) ⟨ts, [], []⟩).map (·.1)

end Node
end Foreach.Yaml

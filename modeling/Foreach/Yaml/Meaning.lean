import Foreach.Value.Mapping
import Foreach.Yaml.Node
import Foreach.Yaml.Scalar

/-!
The values of nodes.

A mapping takes in the entries of the mappings under its keys `<<`; entries of its own, and of mappings
further left, win over them. Nodes are looked at level by level, so of several defects the one with the
fewest collections around it counts, and of those the leftmost.
-/

namespace Foreach.Yaml

/-- A defect, and how many collections are around it. -/
structure Flaw where
  depth : Nat
  defect : Defect

/-- What a node means, unless there is a flaw in it. -/
abbrev Meaning (α : Type) := Except Flaw α

namespace Meaning

variable {α β : Type}

def flaw (d : Defect) : Meaning α := .error ⟨0, d⟩

/-- Two meanings, the first to the left of the second. -/
def both : Meaning α → Meaning β → Meaning (α × β)
  | .ok a, .ok b => .ok (a, b)
  | .ok _, .error f => .error f
  | .error f, .ok _ => .error f
  | .error f, .error g => .error (if g.depth < f.depth then g else f)

def all : List (Meaning α) → Meaning (List α)
  | [] => .ok []
  | m :: ms => (both m (all ms)).map fun (a, as) => a :: as

/-- A meaning inside a collection. -/
def inside (m : Meaning α) : Meaning α := m.mapError fun f => { f with depth := f.depth + 1 }

end Meaning

namespace Tag

/-- Whether values with this tag are put together after those around them. -/
def isCollection (t : Tag) : Bool := t = .list || t = .map || t = .pairs || t = .set

end Tag

namespace Node

def tag : Node → Tag
  | .scalar t _ | .list t _ | .map t _ => t
  | .loop => .list

/-- What stands for a value inside itself: it is nested deeper than any document may be. -/
def endless : Value := Nat.repeat (fun v => .list [v]) 300 .null

/-- The text of a scalar, or of the scalar that a mapping stands for as a whole. -/
def text? : Node → Option (List Char)
  | .scalar _ text => some text
  | .map _ entries => defaultText? entries
  | .list _ _ | .loop => none
where
  defaultText? : List (Node × Node) → Option (List Char)
    | [] => none
    | (k, v) :: rest => if k.tag = .default then text? v else defaultText? rest

/-- A key `=` is a text like any other. -/
def plainKey : Node → Node
  | .scalar .default text => .scalar .text text
  | n => n

/-- The meaning of a node that a scalar is expected to be. -/
def scalarMeaning (n : Node) : Meaning Value :=
  match n.text? with
  | none => .flaw .malformed
  | some text => (Scalar.value n.tag text).mapError fun d => ⟨0, d⟩

/-- An entry of a mapping: what its key and its value mean. -/
abbrev Entry := Meaning Key × Meaning Value

/-- The key that a node means, `m` being its meaning as a value; no collection can be one. -/
def keyMeaning (n : Node) (m : Meaning Value) : Meaning Key :=
  if n.tag.isCollection then .flaw .malformed
  else
    match m with
    | .error f => .error f
    | .ok v => v.toKey?.elim (.flaw .malformed) .ok

/-- A node whose tag does not go with its form. -/
def misshapen : Meaning Value := Meaning.inside (.flaw .malformed)

/-- The mapping of the entries that it takes in and of its own: of equal keys the first place and the
last value stay. -/
def mappingOf (entries : Option (List Entry × List Entry)) : Meaning Mapping :=
  match entries with
  | none => .flaw .malformed
  | some (merged, own) =>
    (Meaning.all ((merged ++ own).map fun (k, v) => Meaning.both k v)).map Mapping.ofEntries

/-- The keys of a mapping, which a set consists of. -/
def keysOf (m : Mapping) : Value := .tuple (m.map fun (k, _) => k.toValue)

mutual

/-- The meaning of a node. -/
def meaning : Node → Meaning Value
  | .loop => .ok endless
  | .scalar t text => if t.isCollection then misshapen else scalarMeaning (.scalar t text)
  | .list t items =>
    if t = .list then Meaning.inside ((meanings items).map Value.list)
    else if t = .pairs then Meaning.inside ((pairs items).map Value.list)
    else if t.isCollection then misshapen
    else .flaw .malformed
  | .map t es =>
    if t = .map then Meaning.inside ((mappingOf (entries es)).map Value.map)
    else if t = .set then Meaning.inside ((mappingOf (entries es)).map keysOf)
    else if t.isCollection then misshapen
    else scalarMeaning (.map t es)

def meanings : List Node → Meaning (List Value)
  | [] => .ok []
  | n :: ns => (Meaning.both (meaning n) (meanings ns)).map fun (v, vs) => v :: vs

/-- The pairs of a list of mappings with one entry each. -/
def pairs : List Node → Meaning (List Value)
  | [] => .ok []
  | .map _ [(k, v)] :: ns =>
    (Meaning.both (Meaning.both (meaning k) (meaning v)) (pairs ns)).map
      fun ((k, v), ps) => .tuple [k, v] :: ps
  | _ :: _ => .flaw .malformed

/-- The entries that a mapping takes in, and its own; none if something is to be taken in that is no
mapping. -/
def entries : List (Node × Node) → Option (List Entry × List Entry)
  | [] => some ([], [])
  | (k, v) :: rest =>
    match entries rest with
    | none => none
    | some (merged, own) =>
      if k.tag = .merge then (offered v).map fun es => (es ++ merged, own)
      else some (merged, ((plainKey k).keyMeaning (keyValue k), meaning v) :: own)

/-- What a key means as a value. -/
def keyValue : Node → Meaning Value
  | .scalar .default text => .ok (.text (String.ofList text))
  | n => meaning n

/-- The entries that a node gives to a mapping that takes it in. -/
def offered : Node → Option (List Entry)
  | .map _ es => (entries es).map fun (merged, own) => merged ++ own
  | .list _ ns => offeredByAll ns
  | .loop => some []
  | .scalar _ _ => none

/-- The entries that the mappings of a list give, those of the first last. -/
def offeredByAll : List Node → Option (List Entry)
  | [] => some []
  | .map _ es :: ns =>
    match entries es, offeredByAll ns with
    | some (merged, own), some more => some (more ++ (merged ++ own))
    | _, _ => none
  | .loop :: ns => offeredByAll ns
  | _ :: _ => none

end

/-- The value of a node. -/
def value (n : Node) : Except Defect Value := n.meaning.mapError (·.defect)

end Node
end Foreach.Yaml

import Foreach.Definition.Document
import Foreach.Notice
import Foreach.Value.Literal
import Foreach.Value.Same

/-!
The store of definitions, by name.

A redefinition keeps its place and the time of the first definition. Names are kept as they were given,
so a name given as bytes is another name than the text that the bytes encode. What can fail gives back the
store that it leaves behind, whether it fails or not.
-/

namespace Foreach

/-- A clock, as its readings in order and how many of them have been taken. -/
structure Clock where
  reading : Nat → Timestamp
  taken : Nat

namespace Clock

def now (c : Clock) : Timestamp := c.reading c.taken

def tick (c : Clock) : Clock := { c with taken := c.taken + 1 }

end Clock

/-- A definition as it is asked for, before any check. -/
structure Proposal where
  name : Value
  type : Value
  spec : Value
  description : Value

/-- Definitions by name, in the order in which their names came. -/
structure Store where
  entries : List (Key × Definition)

namespace Store

def empty : Store := ⟨[]⟩

def size (s : Store) : Nat := s.entries.length

def list (s : Store) : List Definition := s.entries.map (·.2)

def get? (s : Store) (name : Key) : Option Definition := Mapping.get? s.entries name

def contains (s : Store) (name : Key) : Bool := Mapping.contains s.entries name

def require (s : Store) (name : Key) : Except Fault Definition :=
  (s.get? name).elim (.error (.undefined name.display)) .ok

/-- Takes a name out; tells whether it was there. -/
def delete (s : Store) (name : Key) : Store × Bool :=
  (⟨Mapping.erase s.entries name⟩, s.contains name)

/-- A value as a key; lists and mappings, and tuples that hold them, are refused. -/
def keyOf (v : Value) : Except Fault Key :=
  v.toKey?.elim (.error (.mismatch "unhashable type")) .ok

/-- Takes the name that a value is out; tells whether it was there. -/
def remove (s : Store) (name : Value) : Except Fault Bool × Store :=
  match keyOf name with
  | .error f => (.error f, s)
  | .ok key =>
    let (s, there) := s.delete key
    (.ok there, s)

/-- The elements of a value that can be gone through one by one. -/
def elements? : Value → Option (List Value)
  | .text s => some (s.toList.map fun c => .text c.toString)
  | .bytes bs => some (bs.map fun b => .int b.toNat)
  | .list vs | .tuple vs => some vs
  | .map es => some (es.map fun (k, _) => k.toValue)
  | _ => none

/-- The failure to go through a value one by one. -/
def notIterable (v : Value) : Fault := .mismatch s!"'{v.kindName}' object is not iterable"

/-- The elements of a value, if it has any way of going through them. -/
def elements (v : Value) : Except Fault (List Value) :=
  (elements? v).elim (.error (notIterable v)) .ok

/-- The entry that a pair stands for. -/
def pairOf (v : Value) : Except Fault (Key × Value) :=
  match elements? v with
  | none => .error (.mismatch "cannot convert dictionary update sequence element to a sequence")
  | some [k, w] => (keyOf k).map fun key => (key, w)
  | some _ => .error (.badValue "")

/-- The mapping that a value stands for: itself, or the pairs that it consists of. -/
def mappingOf : Value → Except Fault Mapping
  | .map es => .ok es
  | v =>
    match elements v with
    | .error f => .error f
    | .ok vs => (vs.mapM pairOf).map Mapping.ofEntries

/-- The checked content of a proposal. -/
def contentOf (p : Proposal) (spec : Mapping) : Checked Definition.Content :=
  Definition.checkContent (Check.field "name" (Check.text p.name))
    (Check.field "type" (Check.text p.type)) (Definition.checkSpec (.map spec))
    (Check.field "description" (Check.optionalText p.description))

/-- The definition that a proposal makes at a moment, if one stood under its name before. -/
def definitionOf (p : Proposal) (existing : Option Definition) (now : Timestamp) :
    Except Fault Definition :=
  match mappingOf p.spec with
  | .error f => .error f
  | .ok spec =>
    match contentOf p spec with
    | .error issues => .error (.invalid issues)
    | .ok c => .ok (.ofContent c (existing.elim now (·.created)) now)

/-- Defines a proposal at a moment. -/
def put (s : Store) (now : Timestamp) (p : Proposal) : Except Fault Definition × Store :=
  match keyOf p.name with
  | .error f => (.error f, s)
  | .ok name =>
    match definitionOf p (s.get? name) now with
    | .error f => (.error f, s)
    | .ok d => (.ok d, ⟨Mapping.insert s.entries name d⟩)

/-- Accepts a type if it is registered. -/
def acceptType (registered : Key → Bool) (type : Value) : Except Fault Unit :=
  match keyOf type with
  | .error f => .error f
  | .ok k => if registered k then .ok () else .error (.unknownType k.display)

/-- Makes or replaces a definition. The clock is read once if the type is registered, whatever comes
after. -/
def define (s : Store) (registered : Key → Bool) (clock : Clock) (p : Proposal) :
    Except Fault Definition × Store × Clock :=
  match acceptType registered p.type with
  | .error f => (.error f, s, clock)
  | .ok () =>
    let (result, s) := s.put clock.now p
    (result, s, clock.tick)

/-- The document of the whole store. -/
def serialize (s : Store) : Except Fault Value :=
  (s.list.mapM Definition.document).map fun ds => .record [("iterables", .list ds)]

/-- The records that a document lists. -/
def recordsOf (document : Value) : Except Fault (List Value) :=
  if !document.isTruthy then .ok []
  else
    match document with
    | .map es =>
      let listed := (Mapping.getText? es "iterables").getD .null
      if !listed.isTruthy then .ok []
      else elements listed
    | v => .error (.noPart s!"'{v.kindName}' object has no attribute 'get'")

/-- Puts the definition of a record under its name; a record that holds none is left out. -/
def load (s : Store) (record : Value) : Store × List Notice :=
  match Definition.check record with
  | .ok d => (⟨Mapping.setText s.entries d.name d⟩, [])
  | .error _ => (s, [.malformedRecord])

/-- The store of a list of records. -/
def loadAll : Store → List Value → Store × List Notice
  | s, [] => (s, [])
  | s, r :: rs =>
    let (s, notices) := s.load r
    let (s, more) := loadAll s rs
    (s, notices ++ more)

/-- Puts what a document lists in place of all that there is. The records are gathered apart from it
first. -/
def deserialize (s : Store) (document : Value) : Except Fault (List Notice) × Store :=
  match recordsOf document with
  | .error f => (.error f, s)
  | .ok records =>
    let (loaded, notices) := loadAll .empty records
    (.ok notices, loaded)

/-- The store as lines for people. -/
def lines (s : Store) : List String :=
  s!"Iterables: {s.size}" :: s.list.map fun d => s!"  - {d.name} ({d.type})"

/-- Whether two lists of definitions are equal, times by the instant that they denote. -/
def sameDefinitions : List Definition → List Definition → Bool
  | [], [] => true
  | a :: as, b :: bs =>
    a.name == b.name && a.type == b.type && Value.same (.map a.spec) (.map b.spec)
      && a.description == b.description && a.created.instant == b.created.instant
      && a.updated.instant == b.updated.instant && sameDefinitions as bs
  | _, _ => false

end Store
end Foreach

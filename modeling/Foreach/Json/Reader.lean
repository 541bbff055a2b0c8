import Foreach.Json.Token
import Foreach.Value.Mapping

/-!
Reading a JSON document.

The tokens are taken one by one by a machine that keeps the containers that are open, innermost first.
`Json.read` accepts a text if its tokens are one value. In an object that names a key twice the last
value stands in the first one's place.
-/

namespace Foreach.Json

/-- A container that is open, with its items so far, the latest first. -/
inductive Frame where
  | list (items : List Value)
  | map (entries : List (Key × Value)) (key : String)

/-- What the machine has just seen, and so what may come next. -/
inductive Phase where
  /-- A value must come. -/
  | value
  /-- A list was opened: a value or its end. -/
  | firstItem
  /-- An object was opened: a key or its end. -/
  | firstKey
  /-- A key must come, after these entries. -/
  | key (entries : List (Key × Value))
  /-- A key was seen: its colon must come. -/
  | colon (entries : List (Key × Value)) (name : String)
  /-- A value was completed inside the innermost container, or on its own. -/
  | complete (v : Value)

/-- The machine: open containers and phase. -/
structure Machine where
  stack : List Frame
  phase : Phase

namespace Machine

def start : Machine := ⟨[], .value⟩

def completed (stack : List Frame) (v : Value) : Option Machine := some ⟨stack, .complete v⟩

/-- A token where a value may stand. -/
def beginValue (stack : List Frame) : Token → Option Machine
  | .text s => completed stack (.text s)
  | .scalar v => completed stack v
  | .openList => some ⟨.list [] :: stack, .firstItem⟩
  | .openMap => some ⟨stack, .firstKey⟩
  | _ => none

/-- A token where a key must stand. -/
def beginKey (stack : List Frame) (entries : List (Key × Value)) : Token → Option Machine
  | .text s => some ⟨stack, .colon entries s⟩
  | _ => none

/-- A token after a completed value. -/
def continueWith (stack : List Frame) (v : Value) (t : Token) : Option Machine :=
  match stack, t with
  | .list items :: rest, .comma => some ⟨.list (v :: items) :: rest, .value⟩
  | .list items :: rest, .closeList => completed rest (.list (v :: items).reverse)
  | .map entries name :: rest, .comma => some ⟨rest, .key ((.text name, v) :: entries)⟩
  | .map entries name :: rest, .closeMap =>
    completed rest (.map (Mapping.ofEntries ((.text name, v) :: entries).reverse))
  | _, _ => none

def step (m : Machine) (t : Token) : Option Machine :=
  match m.phase with
  | .value => beginValue m.stack t
  | .firstItem =>
    match m.stack, t with
    | .list _ :: rest, .closeList => completed rest (.list [])
    | stack, t => beginValue stack t
  | .firstKey =>
    match t with
    | .closeMap => completed m.stack (.map [])
    | t => beginKey m.stack [] t
  | .key entries => beginKey m.stack entries t
  | .colon entries name =>
    match t with
    | .colon => some ⟨.map entries name :: m.stack, .value⟩
    | _ => none
  | .complete v => continueWith m.stack v t

def run : Machine → List Token → Option Machine
  | m, [] => some m
  | m, t :: ts => (m.step t).bind fun m => run m ts

/-- The value of a machine that has seen one value and nothing more. -/
def result? (m : Machine) : Option Value :=
  match m.stack, m.phase with
  | [], .complete v => some v
  | _, _ => none

end Machine

/-- The value that a text denotes. -/
def read (cs : List Char) : Option Value :=
  (tokens cs).bind fun ts => (Machine.start.run ts).bind Machine.result?

end Foreach.Json

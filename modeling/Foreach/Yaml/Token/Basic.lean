import Foreach.Yaml.Cursor
import Foreach.Yaml.Defect

/-!
The tokens of a YAML text.

Indentation shows as tokens of its own: a collection without brackets has a token where it begins and
one where it ends.
-/

namespace Foreach.Yaml

/-- A token. -/
inductive Token where
  /-- A `%YAML` line, with its major version. -/
  | version (major : Nat)
  /-- A `%TAG` line: a handle, and what it stands for. -/
  | handle (name meaning : List Char)
  /-- Any other line that starts with a percent sign. -/
  | directive
  | documentStart
  | documentEnd
  /-- A list by indentation begins. -/
  | blockList
  /-- A mapping by indentation begins. -/
  | blockMap
  /-- A list or a mapping by indentation ends. -/
  | blockEnd
  | openList
  | closeList
  | openMap
  | closeMap
  /-- The dash in front of an item. -/
  | item
  | comma
  /-- What comes next is a key. -/
  | key
  /-- What comes next is the value of a key. -/
  | value
  | alias (name : List Char)
  | anchor (name : List Char)
  /-- A tag: its handle, if it has one, and the rest. -/
  | tag (handle : Option (List Char)) (suffix : List Char)
  | scalar (text : List Char) (plain : Bool)
  /-- The text has no token from here on. -/
  | broken (defect : Defect)
  deriving DecidableEq, Repr

end Foreach.Yaml

import Foreach.Text.Split

/-!
Routes to files, as text and as places.

A route is absolute, with one slash or two at its start, or relative to the current directory. Empty
parts and dots in it do not count; two dots stay in the text.
-/

namespace Foreach

/-- A route in normal form: what it starts with, and its parts. -/
structure Route where
  root : String
  parts : List String
  deriving DecidableEq, Repr

/-- A place in the tree of files: the names from the root down. -/
abbrev Place := List String

namespace Route

/-- What a text starts with: exactly two slashes are not the same as one. -/
def rootOf : List Char → String
  | '/' :: '/' :: '/' :: _ => "/"
  | '/' :: '/' :: _ => "//"
  | '/' :: _ => "/"
  | _ => ""

/-- Parts that do not count. -/
def isIdle (part : String) : Bool := part = "" || part = "."

/-- The route that a text denotes. -/
def ofText (s : String) : Route :=
  ⟨rootOf s.toList, ((Text.split '/' s.toList).map String.ofList).filter fun p => !isIdle p⟩

/-- The text of a route; the empty route is a dot. -/
def text (r : Route) : String :=
  if r.root = "" ∧ r.parts = [] then "." else r.root ++ "/".intercalate r.parts

/-- One route after another; an absolute one starts anew. -/
def join (r s : Route) : Route := if s.root = "" then ⟨r.root, r.parts ++ s.parts⟩ else s

/-- Where a route begins: at the root, or in the current directory. -/
def start (r : Route) (directory : Place) : Place := if r.root = "" then directory else []

/-- The place after one more part. -/
def descend (place : Place) (part : String) : Place :=
  if part = ".." then place.dropLast else place ++ [part]

/-- Where a route leads from a directory, read as a text: two dots take the part in front of them
away. -/
def place (r : Route) (directory : Place) : Place := r.parts.foldl descend (r.start directory)

/-- The places on the way that a route takes from a directory. -/
def places (r : Route) (directory : Place) : List Place :=
  (List.range r.parts.length).map fun n => (⟨r.root, r.parts.take (n + 1)⟩ : Route).place directory

end Route

/-- The absolute text of a place. -/
def Place.text (p : Place) : String := "/" ++ "/".intercalate p

end Foreach

import Foreach.Record.Check
import Foreach.Timestamp.Reader

/-!
Named definitions of iterables.

A definition says which type of provider makes the items, and with which spec. `Definition.check` reads
one from a record: every field is looked at, and the issues of all of them are kept in field order.
Fields with other names are passed over.
-/

namespace Foreach

/-- A definition: a name, a provider type, the provider's own spec, and when it was first and last
defined. -/
structure Definition where
  name : String
  type : String
  spec : Mapping
  description : Option String
  created : Timestamp
  updated : Timestamp

namespace Definition

/-- The part of a definition that whoever defines it chooses. -/
structure Content where
  name : String
  type : String
  spec : Mapping
  description : Option String

def ofContent (c : Content) (created updated : Timestamp) : Definition :=
  ⟨c.name, c.type, c.spec, c.description, created, updated⟩

/-- An entry of a spec under a text key. -/
def checkEntry (k : Key) (v : Value) : Checked (Key × Value) :=
  (Check.key k).map fun name => (.text name, v)

/-- A spec is a mapping with text keys; what it holds is the provider's own business. -/
def checkSpec (v : Value) : Checked Mapping :=
  match v with
  | .map es =>
    ((Checked.all (es.map fun (k, v) => checkEntry k v)).map Mapping.ofEntries).mapError fun is =>
      is.map (·.under (.name "spec"))
  | _ => .error [.inField "spec" .notMapping]

/-- The chosen fields, given one by one. -/
def checkContent (name type : Checked String) (spec : Checked Mapping)
    (description : Checked (Option String)) : Checked Content :=
  (Checked.both name (Checked.both type (Checked.both spec description))).map
    fun (n, t, s, d) => ⟨n, t, s, d⟩

/-- The chosen fields of a record. -/
def contentOf (m : Mapping) : Checked Content :=
  checkContent (Check.required m "name" Check.text) (Check.required m "type" Check.text)
    ((Mapping.getText? m "spec").elim (.ok []) checkSpec)
    (Check.optional m "description" none Check.optionalText)

/-- A time under its name or, failing that, under its other name. -/
def checkTime (m : Mapping) (name other : String) : Checked Timestamp :=
  match Mapping.getText? m name, Mapping.getText? m other with
  | none, some v => Check.field other (Timestamp.check v)
  | _, _ => Check.required m name Timestamp.check

/-- The definition that a record holds. -/
def check (v : Value) : Checked Definition :=
  match v with
  | .map m =>
    (Checked.both (contentOf m) (Checked.both (checkTime m "created_at" "createdAt")
      (checkTime m "updated_at" "updatedAt"))).map fun (c, t, u) => ofContent c t u
  | _ => .error [⟨[], .notRecord⟩]

end Definition
end Foreach

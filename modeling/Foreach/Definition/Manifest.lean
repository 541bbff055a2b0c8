import Foreach.Definition.Store
import Foreach.Value.Literal

/-!
Manifests: documents that list definitions to make.

A manifest is a mapping whose `iterables` are the entries, or the entries themselves. Entries are a list
of mappings, or a mapping from names to mappings; there null stands for an empty one, and a name inside
an entry wins over the key. The entries are defined one after another, and the first that cannot be
defined ends it.
-/

namespace Foreach.Manifest

def shape : Fault := .usage "Definitions file must contain an 'iterables' mapping or list"

/-- An entry under a name. -/
def namedEntry (k : Key) (v : Value) : Except Fault Mapping :=
  match v with
  | .null => .ok [(.text "name", k.toValue)]
  | .map es => .ok (Mapping.update [(.text "name", k.toValue)] es)
  | _ => .error (.usage s!"Definition for @{k.display} must be a mapping")

/-- An entry of a list. -/
def listedEntry : Value → Except Fault Mapping
  | .map es => .ok es
  | _ => .error shape

/-- The entries of a manifest, in order. -/
def entries (document : Value) : Except Fault (List Mapping) :=
  let listing := match document with
    | .map es => (Mapping.getText? es "iterables").getD .null
    | v => v
  match listing with
  | .map es => es.mapM fun (k, v) => namedEntry k v
  | .list vs => vs.mapM listedEntry
  | _ => .error shape

/-- What an entry says under a name, null if it says nothing. -/
def part (entry : Mapping) (name : String) : Value := (Mapping.getText? entry name).getD .null

/-- The spec of an entry; nothing at all and an empty value of any kind are an empty spec. -/
def specOf (entry : Mapping) (name : String) : Except Fault Mapping :=
  let spec := part entry "spec"
  if !spec.isTruthy then .ok []
  else
    match spec with
    | .map es => .ok es
    | _ => .error (.usage s!"Spec for @{name} must be a mapping")

/-- What an entry asks to be defined. -/
def proposal (entry : Mapping) : Except Fault Proposal :=
  match part entry "name", part entry "type" with
  | .text name, .text type =>
    (specOf entry name).map fun spec =>
      ⟨.text name, .text type, .map spec, part entry "description"⟩
  | _, _ => .error (.usage "Each definition needs a string 'name' and 'type'")

/-- The store after the entries are defined, and the clock, which has moved on even if one of them
fails. -/
def defineAll (registered : Key → Bool) :
    Store → Clock → List Mapping → Except Fault Store × Clock
  | store, clock, [] => (.ok store, clock)
  | store, clock, entry :: rest =>
    match proposal entry with
    | .error f => (.error f, clock)
    | .ok p =>
      match store.define registered clock p with
      | (.error f, _, clock) => (.error f, clock)
      | (.ok _, store, clock) => defineAll registered store clock rest

end Foreach.Manifest

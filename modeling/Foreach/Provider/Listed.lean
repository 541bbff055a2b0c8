import Foreach.Provider.Basic
import Foreach.Provider.Thing
import Foreach.Definition.Store
import Foreach.Text.UpperCase

/-!
Providers of items that are given one by one in the spec.

The items are those of the spec's `item` list, as they are or in upper case. The sequence keeps its
position; after a failure it is at its end.
-/

namespace Foreach.Listed

/-- The options that a listing provider takes. -/
def options : OptionSchema :=
  [("item", ⟨.text, true, none⟩), ("label", ⟨.text, false, none⟩), ("upper", ⟨.flag, false, none⟩),
    ("flag", ⟨.flag, true, none⟩)]

/-- The things that a spec lists; none if it says nothing of them. -/
def listed (spec : Mapping) : Except Fault (List Value) :=
  (Mapping.getText? spec "item").elim (.ok []) Store.elements

/-- A byte with a small letter of ASCII as the large one. -/
def upperByte (b : UInt8) : UInt8 := if 0x61 ≤ b ∧ b ≤ 0x7a then b - 0x20 else b

/-- One thing as it is put in. -/
def shownAs (spec : Mapping) (v : Value) : Except Fault Value :=
  if ((Mapping.getText? spec "upper").getD .null).isTruthy then
    match v with
    | .text s => .ok (.text (Text.upper s))
    | .bytes bs => .ok (.bytes (bs.map upperByte))
    | v => .error (.noPart s!"'{v.kindName}' object has no attribute 'upper'")
  else .ok v

/-- The item for the thing with this index. -/
def itemOf (spec : Mapping) (refused : Value → Option Fault) (index : Nat) (v : Value) :
    Except Fault Item :=
  match refused v with
  | some f => .error f
  | none =>
    (shownAs spec v).map fun text =>
      .entry text (.record [("item", text), ("index", .ofNat index),
        ("label", (Mapping.getText? spec "label").getD .null), ("spec", .map spec)])

/-- The item at the present position, and the next position. -/
def next (spec : Mapping) (refused : Value → Option Fault) (position : Nat) (things : List Value) :
    Except Fault (Option Item) × Nat :=
  match things[position]? with
  | none => (.ok none, position)
  | some v =>
    match itemOf spec refused position v with
    | .error f => (.error f, things.length)
    | .ok item => (.ok (some item), position + 1)

/-- The sequence of a list of things. -/
def source (spec : Mapping) (refused : Value → Option Fault) (things : List Value) : Source Nat where
  pull s :=
    let (result, position) := next spec refused s.state things
    (result, { s with state := position })
  close? := some (Activity.give ())

/-- A sequence that fails at its first pull and has nothing more to give. -/
def failing (f : Fault) : Source Nat where
  pull s := (if s.state = 0 then .error f else .ok none, { s with state := 1 })
  close? := some (Activity.give ())

def sourceOf (spec : Mapping) (refused : Value → Option Fault) : Source Nat :=
  match listed spec with
  | .ok things => source spec refused things
  | .error f => failing f

/-- The provider of listed items; some things may be refused. -/
def provider (serial : Nat) (type description : String) (refused : Value → Option Fault) :
    Provider Nat where
  serial := serial
  type := type
  description := description
  options := options
  generate spec s := (.ok (some (sourceOf spec refused)), { s with state := 0 })

/-- A provider without options and without items. -/
def vacant (serial : Nat) (type description : String) : Provider Nat where
  serial := serial
  type := type
  description := description
  options := []
  generate _ s := (.ok (some (source [] (fun _ => none) [])), { s with state := 0 })

theorem source_finite (spec : Mapping) (refused : Value → Option Fault) (things : List Value) :
    (source spec refused things).Finite := by
  refine ⟨fun position => things.length - position, fun before item after h => ?_⟩
  simp only [source, Prod.mk.injEq] at h
  obtain ⟨hitem, rfl⟩ := h
  unfold next at hitem ⊢
  split at hitem
  next => simp at hitem
  next v hv =>
    have hlt := (List.getElem?_eq_some_iff.1 hv).1
    split at hitem
    next => simp at hitem
    next => dsimp only; omega

theorem failing_finite (f : Fault) : (failing f).Finite := by
  refine ⟨fun _ => 0, fun before item after h => ?_⟩
  simp only [failing, Prod.mk.injEq] at h
  split at h <;> simp at h

theorem provider_finite (serial : Nat) (type description : String)
    (refused : Value → Option Fault) : (provider serial type description refused).Finite := by
  intro spec before source after h
  simp only [provider, Prod.mk.injEq, Except.ok.injEq, Option.some.injEq] at h
  obtain ⟨rfl, -⟩ := h
  unfold sourceOf
  split
  next => exact source_finite _ _ _
  next => exact failing_finite _

theorem vacant_finite (serial : Nat) (type description : String) :
    (vacant serial type description).Finite := by
  intro spec before source after h
  simp only [vacant, Prod.mk.injEq, Except.ok.injEq, Option.some.injEq] at h
  obtain ⟨rfl, -⟩ := h
  exact source_finite _ _ _

/-- A provider with the name of its kind. -/
structure Named where
  provider : FiniteProvider Nat
  kind : String

instance : BEq Named := ⟨fun a b => a.provider == b.provider⟩

/-- What a provider has whose methods the kind `home` declares. -/
def members (home : String) : List (String × Member) :=
  [("type", .value "str"), ("description", .value "str"), ("args_config", .method home []),
    ("generate", .method home ["spec", "context"])]

/-- A kind of providers of listed items. -/
def kind (name home type description : String) (refused : Value → Option Fault) : Kind Named where
  name := name
  make serial :=
    let p := ⟨provider serial type description refused, provider_finite serial type description refused⟩
    .ok ⟨some (.text type), some ⟨p, name⟩⟩
  members := members home

/-- A kind of providers without items. -/
def vacantKind (name type description : String) : Kind Named where
  name := name
  make serial :=
    let p := ⟨vacant serial type description, vacant_finite serial type description⟩
    .ok ⟨some (.text type), some ⟨p, name⟩⟩
  members := members name

end Foreach.Listed

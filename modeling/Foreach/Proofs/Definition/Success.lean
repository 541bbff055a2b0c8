import Foreach.Proofs.Definition.Acceptance
import Foreach.Proofs.Definition.Loading

/-!
Which proposals a store takes up, and which documents it reads.

A proposal is taken up if its type is registered and each of its parts has the right form. What the store
holds makes no difference, not even a definition that stands under the name.
-/

namespace Foreach

section

variable {ε ε' α β : Type}

/-- The result is a value, and no failure. -/
def Succeeds (x : Except ε α) : Prop := ∃ a, x = .ok a

@[simp]
theorem succeeds_ok (a : α) : Succeeds (.ok a : Except ε α) := ⟨a, rfl⟩

@[simp]
theorem not_succeeds_error (e : ε) : ¬Succeeds (.error e : Except ε α) := nofun

@[simp]
theorem succeeds_map {f : α → β} {x : Except ε α} : Succeeds (x.map f) ↔ Succeeds x := by
  cases x <;> simp [Except.map]

@[simp]
theorem succeeds_mapError {f : ε → ε'} {x : Except ε α} : Succeeds (x.mapError f) ↔ Succeeds x := by
  cases x <;> simp [Except.mapError]

@[simp]
theorem succeeds_elim {x : Option α} {e : ε} : Succeeds (x.elim (.error e) .ok) ↔ x.isSome = true := by
  cases x <;> simp

theorem not_succeeds_iff {x : Except ε α} : ¬Succeeds x ↔ ∃ e, x = .error e := by
  cases x <;> simp

theorem succeeds_mapM {f : α → Except ε β} {as : List α} : Succeeds (as.mapM f) ↔ ∀ a ∈ as, Succeeds (f a) := by
  constructor
  · rintro ⟨bs, hbs⟩ a ha
    obtain ⟨b, -, hb⟩ := exists_of_forall₂ (mapM_eq_ok hbs) ha
    exact ⟨b, hb⟩
  · intro h
    by_contra hfail
    obtain ⟨e, he⟩ := not_succeeds_iff.1 hfail
    obtain ⟨a, ha, hfa⟩ := exists_of_mapM_error he
    exact not_succeeds_iff.2 ⟨e, hfa⟩ (h a ha)

@[simp]
theorem Checked.succeeds_both {a : Checked α} {b : Checked β} : Succeeds (both a b) ↔ Succeeds a ∧ Succeeds b := by
  cases a <;> cases b <;> simp [both]

theorem Checked.succeeds_all {checks : List (Checked α)} : Succeeds (all checks) ↔ ∀ c ∈ checks, Succeeds c := by
  induction checks with
  | nil => simp [all]
  | cons c checks ih => simp [all, ih]

end

/-- A text, or bytes that encode one. -/
inductive Value.IsText : Value → Prop
  | text (s : String) : IsText (.text s)
  | bytes {bs : List UInt8} {cs : List Char} (h : Utf8.decode bs = some cs) : IsText (.bytes bs)

namespace Check

variable {v : Value}

theorem succeeds_text : Succeeds (text v) ↔ v.IsText := by
  constructor
  · rintro ⟨s, h⟩
    unfold text at h
    split at h
    next => exact .text _
    next =>
      split at h
      next hdecode => exact .bytes hdecode
      next => cases h
    next => cases h
  · rintro (s | h)
    · exact ⟨s, rfl⟩
    · simp [text, h]

theorem succeeds_optionalText : Succeeds (optionalText v) ↔ v = .null ∨ v.IsText := by
  rw [← succeeds_text]
  cases v <;> simp [optionalText, text]

@[simp]
theorem succeeds_field {α : Type} {name : String} {r : Result α} : Succeeds (field name r) ↔ Succeeds r := by
  cases r <;> simp [field]

theorem succeeds_key {k : Key} : Succeeds (key k) ↔ k.toValue.IsText := by
  rw [← succeeds_text, key]
  cases text k.toValue <;> simp

end Check

/-- The keys of a spec are texts. -/
theorem Definition.succeeds_checkSpec {es : Mapping} :
    Succeeds (checkSpec (.map es)) ↔ ∀ e ∈ es, e.1.toValue.IsText := by
  simp only [checkSpec, succeeds_mapError, succeeds_map, Checked.succeeds_all, List.forall_mem_map, checkEntry,
    Check.succeeds_key]

namespace Store

variable {s : Store} {now : Timestamp} {p : Proposal}

/-- A proposal that nothing speaks against: the type is registered, and the parts are of the right form. -/
structure Welcomes (registered : Key → Bool) (p : Proposal) : Prop where
  registered : ∃ type, p.type.toKey? = some type ∧ registered type = true
  type : p.type.IsText
  name : p.name.IsText
  spec : ∃ m, mappingOf p.spec = .ok m ∧ ∀ e ∈ m, e.1.toValue.IsText
  description : p.description = .null ∨ p.description.IsText

theorem succeeds_keyOf {v : Value} : Succeeds (keyOf v) ↔ v.toKey?.isSome = true := succeeds_elim

theorem succeeds_remove {name : Value} : Succeeds (s.remove name).1 ↔ name.toKey?.isSome = true := by
  rw [← succeeds_keyOf, remove]
  cases keyOf name <;> simp

theorem succeeds_acceptType (registered : Key → Bool) (type : Value) :
    Succeeds (acceptType registered type) ↔ ∃ key, type.toKey? = some key ∧ registered key = true := by
  unfold acceptType keyOf
  cases type.toKey? with
  | none => simp
  | some key => cases hkey : registered key <;> simp [hkey]

theorem succeeds_contentOf {m : Mapping} : Succeeds (contentOf p m) ↔
    p.name.IsText ∧ p.type.IsText ∧ (∀ e ∈ m, e.1.toValue.IsText) ∧
      (p.description = .null ∨ p.description.IsText) := by
  simp only [contentOf, Definition.checkContent, succeeds_map, Checked.succeeds_both, Check.succeeds_field,
    Check.succeeds_text, Check.succeeds_optionalText, Definition.succeeds_checkSpec]

theorem succeeds_definitionOf (p : Proposal) (existing : Option Definition) (now : Timestamp) :
    Succeeds (definitionOf p existing now) ↔ ∃ m, mappingOf p.spec = .ok m ∧ Succeeds (contentOf p m) := by
  unfold definitionOf
  cases mappingOf p.spec with
  | error f => simp
  | ok m => cases hcontent : contentOf p m <;> simp [hcontent]

theorem isSome_toKey?_of_isText {v : Value} (h : v.IsText) : v.toKey?.isSome = true := by
  cases h <;> rfl

theorem succeeds_put : Succeeds (s.put now p).1 ↔
    p.name.toKey?.isSome = true ∧ ∃ m, mappingOf p.spec = .ok m ∧ Succeeds (contentOf p m) := by
  rw [← succeeds_keyOf, put]
  cases keyOf p.name with
  | error f => simp
  | ok name =>
    have hdefinition := succeeds_definitionOf p (s.get? name) now
    cases hresult : definitionOf p (s.get? name) now <;> simp [hresult, ← hdefinition]

/-- Whether a definition is made is up to the proposal alone. -/
theorem succeeds_define (s : Store) (registered : Key → Bool) (clock : Clock) (p : Proposal) :
    Succeeds (s.define registered clock p).1 ↔ Welcomes registered p := by
  have haccept := succeeds_acceptType registered p.type
  unfold define
  cases hresult : acceptType registered p.type with
  | error f =>
    rw [hresult] at haccept
    refine iff_of_false (not_succeeds_error f) fun h => not_succeeds_error f (haccept.2 h.registered)
  | ok =>
    rw [hresult] at haccept
    have hregistered := haccept.1 (succeeds_ok ())
    simp only [succeeds_put, succeeds_contentOf]
    constructor
    · rintro ⟨-, m, hm, hname, htype, hkeys, hdescription⟩
      exact ⟨hregistered, htype, hname, ⟨m, hm, hkeys⟩, hdescription⟩
    · rintro ⟨-, htype, hname, ⟨m, hm, hkeys⟩, hdescription⟩
      exact ⟨isSome_toKey?_of_isText hname, m, hm, hname, htype, hkeys, hdescription⟩

/-- A document whose records can be gone through: it is nothing, or what it has under its name for them is
nothing or consists of elements. -/
def Readable (document : Value) : Prop :=
  document.isTruthy = false ∨ ∃ es, document = .map es ∧
    let listed := (Mapping.getText? es "iterables").getD .null
    listed.isTruthy = false ∨ (elements? listed).isSome = true

theorem succeeds_recordsOf {document : Value} : Succeeds (recordsOf document) ↔ Readable document := by
  unfold Readable
  cases htruthy : document.isTruthy with
  | false => simp [recordsOf, htruthy]
  | true =>
    cases document with
    | map es =>
      rw [recordsOf_map]
      cases hlisted : ((Mapping.getText? es "iterables").getD .null).isTruthy <;> simp [hlisted, elements]
    | _ => simp [recordsOf, htruthy]

theorem succeeds_deserialize {document : Value} : Succeeds (s.deserialize document).1 ↔ Readable document := by
  rw [← succeeds_recordsOf, deserialize]
  cases recordsOf document <;> simp

theorem succeeds_require {key : Key} : Succeeds (s.require key) ↔ s.contains key = true := by
  rw [require, succeeds_elim, contains_eq_isSome]

theorem succeeds_serialize : Succeeds s.serialize ↔ ∀ d ∈ s.list, Succeeds d.document := by
  rw [serialize, succeeds_map, succeeds_mapM]

end Store
end Foreach

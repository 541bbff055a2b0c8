import Foreach.Proofs.Definition.Form
import Foreach.Proofs.Json.Encodable
import Foreach.Proofs.Timestamp

/-!
Documents of definitions.

A definition that is read from the document of another has that same document. It is told by the same
name, type, description and times; only its spec may have taken its document form, and if that was plain
from the start, the definition is what it was.
-/

namespace Foreach

/-- A record is plain if its fields are, and if it has one of each name. -/
theorem Value.record_plain {fields : List (String × Value)} (hnames : (fields.map (·.1)).Nodup)
    (hfields : ∀ f ∈ fields, f.2.Plain) : (Value.record fields).Plain := by
  refine .map ?_ ?_ ?_
  · have hkeys : Mapping.keys (fields.map fun f => (Key.text f.1, f.2)) = (fields.map (·.1)).map .text := by
      simp [Mapping.keys]
    rw [Mapping.Distinct, hkeys, List.pairwise_map]
    exact hnames.imp fun hne => by rw [Mapping.same_text]; exact beq_eq_false_iff_ne.2 hne
  · intro e he
    obtain ⟨f, -, rfl⟩ := List.mem_map.1 he
    exact ⟨f.1, rfl⟩
  · intro e he
    obtain ⟨f, hf, rfl⟩ := List.mem_map.1 he
    exact hfields f hf

theorem Check.optionalText_elim (s : Option String) : Check.optionalText (s.elim .null .text) = .ok s := by
  cases s <;> rfl

namespace Definition

variable {d : Definition} {v : Value}

/-- The fields of a document. -/
def fields (d : Definition) (spec : Mapping) : List (String × Value) :=
  [("name", .text d.name), ("type", .text d.type), ("spec", .map (Mapping.ofEntries spec)),
    ("description", d.description.elim .null .text), ("created_at", .text d.created.document),
    ("updated_at", .text d.updated.document)]

theorem document_eq_ok (h : d.document = .ok v) :
    ∃ spec, Document.ofSpec d.spec = .ok spec ∧ v = .record (d.fields spec) := by
  obtain ⟨spec, hspec, rfl⟩ := map_eq_ok h
  exact ⟨spec, hspec, rfl⟩

theorem document_plain (h : d.document = .ok v) : v.Plain := by
  obtain ⟨spec, hspec, rfl⟩ := document_eq_ok h
  obtain ⟨htexts, hvalues⟩ := (Document.ofSpec_eq_ok hspec).ofEntries
  have hspec : (Value.map (Mapping.ofEntries spec)).Plain := by
    refine .map (Mapping.distinct_ofEntries _) htexts fun e he => ?_
    obtain ⟨u, -, hue⟩ := hvalues e he
    exact Document.ofValue_plain hue
  have hdescription : (d.description.elim Value.null .text).Plain := by
    cases d.description with
    | none => exact .null
    | some s => exact .text s
  refine Value.record_plain (by simp [fields]) ?_
  simp only [fields, List.forall_mem_cons]
  exact ⟨.text _, .text _, hspec, hdescription, .text _, .text _, List.forall_mem_nil _⟩

/-- A definition has a document that some bytes encode. -/
def Encodable (d : Definition) : Prop := ∃ v, d.document = .ok v ∧ Json.Encodable v

/-- Then no half stands in its name or its type. -/
theorem Encodable.whole (h : d.Encodable) : Text.Whole d.name.toList ∧ Text.Whole d.type.toList := by
  obtain ⟨v, hdocument, hv⟩ := h
  obtain ⟨spec, -, rfl⟩ := document_eq_ok hdocument
  have hname := hv.entry (e := (.text "name", .text d.name)) (by simp [fields])
  have htype := hv.entry (e := (.text "type", .text d.type)) (by simp [fields])
  exact ⟨hname.2.text, htype.2.text⟩

theorem Encodable.whole_description (h : d.Encodable) {text : String} (htext : d.description = some text) :
    Text.Whole text.toList := by
  obtain ⟨v, hdocument, hv⟩ := h
  obtain ⟨spec, -, rfl⟩ := document_eq_ok hdocument
  have hentry := hv.entry (e := (.text "description", .text text)) (by simp [fields, htext])
  exact hentry.2.text

/-- The entries of a checked spec are those of the spec, if its keys are texts. -/
theorem checkSpec_map {m : Mapping} (htexts : Mapping.Texts m) (hdistinct : Mapping.Distinct m) :
    checkSpec (.map m) = .ok m := by
  have hall : Checked.all (m.map fun e => checkEntry e.1 e.2) = .ok m := by
    clear hdistinct
    induction m with
    | nil => rfl
    | cons e m ih =>
      obtain ⟨k, v⟩ := e
      obtain ⟨⟨name, hname⟩, hm⟩ := List.forall_mem_cons.1 htexts
      obtain rfl : k = .text name := hname
      have hentry : checkEntry (.text name) v = .ok (.text name, v) := rfl
      rw [List.map_cons, Checked.all, hentry, ih hm]
      rfl
  change ((Checked.all (m.map fun e => checkEntry e.1 e.2)).map Mapping.ofEntries).mapError _ = _
  rw [hall, Except.map, Mapping.ofEntries_of_distinct hdistinct]
  rfl

/-- Two definitions stand for each other: they are told by the same, their specs apart, and become one
document or fail to become any in the same way. -/
structure Mirrors (d e : Definition) : Prop where
  name : d.name = e.name
  type : d.type = e.type
  description : d.description = e.description
  created : d.created = e.created
  updated : d.updated = e.updated
  document : d.document = e.document

/-- What a definition is told by, its spec apart. -/
def face (d : Definition) : String × String × Option String × Timestamp × Timestamp :=
  (d.name, d.type, d.description, d.created, d.updated)

theorem Mirrors.face {d e : Definition} (h : d.Mirrors e) : d.face = e.face := by
  rw [Definition.face, h.name, h.type, h.description, h.created, h.updated, Definition.face]

theorem Mirrors.refl (d : Definition) : d.Mirrors d := ⟨rfl, rfl, rfl, rfl, rfl, rfl⟩

theorem Mirrors.trans {d e f : Definition} (h : d.Mirrors e) (h' : e.Mirrors f) : d.Mirrors f :=
  ⟨h.name.trans h'.name, h.type.trans h'.type, h.description.trans h'.description, h.created.trans h'.created,
    h.updated.trans h'.updated, h.document.trans h'.document⟩

theorem Encodable.of_mirrors {e : Definition} (h : d.Encodable) (he : e.Mirrors d) : e.Encodable := by
  obtain ⟨v, hv, hencodable⟩ := h
  exact ⟨v, he.document.trans hv, hencodable⟩

/-- A definition as it is read from its document: its spec has taken its document form. -/
theorem check_fields {spec : Mapping} (hspec : Document.ofSpec d.spec = .ok spec) :
    check (.record (d.fields spec)) = .ok { d with spec := Mapping.ofEntries spec } := by
  have hcheck : checkSpec (.map (Mapping.ofEntries spec)) = .ok (Mapping.ofEntries spec) :=
    checkSpec_map (Document.ofSpec_eq_ok hspec).ofEntries.texts (Mapping.distinct_ofEntries spec)
  have hdescription := Check.optionalText_elim d.description
  have htime : ∀ t : Timestamp, Timestamp.check (.text t.document) = .ok t := Timestamp.ofText_document
  simp [check, Value.record, fields, contentOf, checkContent, checkTime, Check.required, Check.optional,
    Check.field, Check.text, Mapping.getText?, Mapping.get?, Mapping.same_text, hcheck, hdescription, htime,
    Checked.both, Except.map, ofContent]

/-- The definition that is read from the document of another stands for it. -/
theorem check_document (h : d.document = .ok v) : ∃ e, check v = .ok e ∧ e.Mirrors d := by
  obtain ⟨spec, hspec, rfl⟩ := document_eq_ok h
  refine ⟨_, check_fields hspec, rfl, rfl, rfl, rfl, rfl, ?_⟩
  rw [h, document, Document.ofSpec_ofEntries hspec, Except.map,
    Mapping.ofEntries_of_distinct (Mapping.distinct_ofEntries spec)]
  rfl

/-- A spec that a document has room for as it is: it is plain, and its keys are whole. -/
structure Plain (d : Definition) : Prop where
  spec : (Value.map d.spec).Plain
  keys : Document.WholeKeys d.spec

/-- Then the definition is what is read from its document. -/
theorem Plain.check_document (hd : d.Plain) (h : d.document = .ok v) : check v = .ok d := by
  obtain ⟨spec, hspec, rfl⟩ := document_eq_ok h
  have hplain := hd.spec
  cases hplain with
  | map hdistinct _ hvalues =>
    obtain rfl := Document.ofSpec_of_plain hd.keys hvalues hspec
    rw [check_fields hspec, Mapping.ofEntries_of_distinct hdistinct]

end Definition
end Foreach

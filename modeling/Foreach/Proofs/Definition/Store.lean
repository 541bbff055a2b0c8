import Foreach.Proofs.Definition.Acceptance
import Foreach.Proofs.Definition.Document

/-!
What a store is after a change, and what it is after a way through its document.

Two stores mirror each other if they have the same names in the same order, and definitions that stand
for each other under them. Changes keep stores mirrored, mirrored stores have one document, and the
store that is read from a document mirrors the one that was written, as long as each definition stands
under its own name.
-/

namespace Foreach

theorem mapM_eq_ok {ε α β : Type} {f : α → Except ε β} {as : List α} {bs : List β}
    (h : as.mapM f = .ok bs) : List.Forall₂ (fun a b => f a = .ok b) as bs := by
  induction as generalizing bs with
  | nil =>
    cases h
    exact .nil
  | cons a as ih =>
    rw [List.mapM_cons] at h
    cases ha : f a with
    | error e =>
      rw [ha] at h
      cases h
    | ok b =>
      cases has : as.mapM f with
      | error e =>
        rw [ha, has] at h
        cases h
      | ok rest =>
        rw [ha, has] at h
        cases h
        exact .cons ha (ih has)

theorem mapM_of_forall₂ {ε α β : Type} {f : α → Except ε β} {as : List α} {bs : List β}
    (h : List.Forall₂ (fun a b => f a = .ok b) as bs) : as.mapM f = .ok bs := by
  induction h with
  | nil => rfl
  | cons hab _ ih =>
    rw [List.mapM_cons, hab, ih]
    rfl

theorem exists_of_forall₂ {α β : Type} {rel : α → β → Prop} {as : List α} {bs : List β}
    (h : List.Forall₂ rel as bs) {a : α} (ha : a ∈ as) : ∃ b ∈ bs, rel a b := by
  induction h with
  | nil => cases ha
  | cons hab _ ih =>
    rcases List.mem_cons.1 ha with rfl | hrest
    · exact ⟨_, List.mem_cons_self, hab⟩
    · obtain ⟨b, hb, hrel⟩ := ih hrest
      exact ⟨b, List.mem_cons_of_mem _ hb, hrel⟩

namespace Store

variable {s t u : Store}

/-! ### Names -/

/-- Every definition stands under its own name, and no two have the same. -/
structure Named (s : Store) : Prop where
  names : ∀ e ∈ s.entries, e.1 = .text e.2.name
  distinct : Mapping.Distinct s.entries

theorem named_empty : empty.Named := ⟨List.forall_mem_nil _, List.Pairwise.nil⟩

/-- The store with a definition under its name. -/
def enter (s : Store) (d : Definition) : Store := ⟨Mapping.insert s.entries (.text d.name) d⟩

theorem Named.enter (h : s.Named) (d : Definition) : (s.enter d).Named := by
  refine ⟨fun e he => ?_, Mapping.distinct_insert h.distinct _ _⟩
  rcases Mapping.mem_insert he with hmem | ⟨rfl, hkey | ⟨hmem, hsame⟩⟩
  · exact h.names e hmem
  · exact hkey
  · obtain ⟨f, hf, hkey⟩ := List.mem_map.1 hmem
    rw [← hkey, h.names f hf, Mapping.same_text, beq_iff_eq] at hsame
    rw [← hkey, h.names f hf, hsame]

theorem Named.delete (h : s.Named) (name : Key) : (s.delete name).1.Named :=
  ⟨fun e he => h.names e (List.mem_filter.1 he).1, Mapping.distinct_erase h.distinct name⟩

/-- A text that is a name is the name of the definition that stands under it. -/
theorem Named.name_of_contains (hs : s.Named) {name : String} (h : s.contains (.text name) = true) :
    ∃ e ∈ s.entries, e.2.name = name := by
  obtain ⟨e, he, hsame⟩ := List.any_eq_true.1 h
  have hkey : e.1.same (.text name) = true := hsame
  rw [hs.names e he, Mapping.same_text, beq_iff_eq] at hkey
  exact ⟨e, he, hkey⟩

/-! ### Stores that mirror each other -/

/-- The same names in the same order, and definitions that stand for each other. -/
def Mirrors (s t : Store) : Prop := Mapping.Agree Definition.Mirrors s.entries t.entries

theorem Mirrors.refl (s : Store) : s.Mirrors s :=
  List.forall₂_same.2 fun e _ => ⟨rfl, .refl e.2⟩

theorem Mirrors.trans (h : s.Mirrors t) (h' : t.Mirrors u) : s.Mirrors u := by
  unfold Mirrors Mapping.Agree at *
  generalize s.entries = ss at h
  generalize t.entries = ts at h h'
  generalize u.entries = us at h'
  induction h generalizing us with
  | nil =>
    cases h'
    exact .nil
  | cons hst _ ih =>
    cases h' with
    | cons htu h' => exact .cons ⟨hst.1.trans htu.1, hst.2.trans htu.2⟩ (ih _ h')

theorem Mirrors.serialize (h : s.Mirrors t) : s.serialize = t.serialize := by
  have hdocuments : s.list.mapM Definition.document = t.list.mapM Definition.document := by
    unfold Mirrors Mapping.Agree at h
    unfold list
    generalize s.entries = ss at h
    generalize t.entries = ts at h
    induction h with
    | nil => rfl
    | cons hst _ ih => simp only [List.map_cons, List.mapM_cons, hst.2.document, ih]
  rw [Store.serialize, hdocuments, Store.serialize]

theorem Mirrors.delete (h : s.Mirrors t) (name : Key) : (s.delete name).1.Mirrors (t.delete name).1 :=
  Mapping.Agree.erase h name

theorem Mirrors.created (h : s.Mirrors t) (name : Key) (now : Timestamp) :
    (s.get? name).elim now (·.created) = (t.get? name).elim now (·.created) := by
  have hget := Mapping.Agree.get? h name
  unfold get?
  generalize Mapping.get? s.entries name = a at hget
  generalize Mapping.get? t.entries name = b at hget
  cases hget with
  | none => rfl
  | some hmirrors => exact hmirrors.created

/-! ### Changes -/

variable {registered : Key → Bool} {clock clock' : Clock} {now : Timestamp} {p : Proposal} {d : Definition}

theorem put_eq_ok (h : s.put now p = (.ok d, t)) :
    ∃ name, keyOf p.name = .ok name ∧ definitionOf p (s.get? name) now = .ok d ∧
      t = ⟨Mapping.insert s.entries name d⟩ := by
  unfold put at h
  split at h
  next => cases h
  next name hname =>
    split at h
    next => cases h
    next hdefinition =>
      cases h
      exact ⟨name, hname, hdefinition, rfl⟩

/-- A definition that cannot be made leaves the store as it was. -/
theorem put_of_error {f : Fault} (h : (s.put now p).1 = .error f) : s.put now p = (.error f, s) := by
  unfold put at h ⊢
  cases hname : keyOf p.name with
  | error g =>
    rw [hname] at h
    cases h
    rfl
  | ok name =>
    cases hdefinition : definitionOf p (s.get? name) now with
    | error g =>
      simp only [hname, hdefinition] at h ⊢
      cases h
      rfl
    | ok d => simp only [hname, hdefinition, reduceCtorEq] at h

theorem remove_of_error {name : Value} {f : Fault} (h : (s.remove name).1 = .error f) : (s.remove name).2 = s := by
  unfold remove at h ⊢
  cases hname : keyOf name with
  | error g => rfl
  | ok key => simp only [hname, reduceCtorEq] at h

theorem define_eq_ok (h : s.define registered clock p = (.ok d, t, clock')) :
    acceptType registered p.type = .ok () ∧ s.put clock.now p = (.ok d, t) ∧ clock' = clock.tick := by
  unfold define at h
  split at h
  next => cases h
  next haccept =>
    obtain ⟨hresult, hrest⟩ := Prod.mk.inj h
    obtain ⟨hstore, hclock⟩ := Prod.mk.inj hrest
    exact ⟨haccept, Prod.ext hresult hstore, hclock.symm⟩

theorem define_of_error {f : Fault} (h : (s.define registered clock p).1 = .error f) :
    (s.define registered clock p).2.1 = s := by
  unfold define at h ⊢
  cases haccept : acceptType registered p.type with
  | error g => rfl
  | ok =>
    rw [haccept] at h
    exact congrArg Prod.snd (put_of_error h)

theorem both_eq_ok {α β : Type} {a : Checked α} {b : Checked β} {x : α} {y : β}
    (h : Checked.both a b = .ok (x, y)) : a = .ok x ∧ b = .ok y := by
  unfold Checked.both at h
  split at h <;> cases h
  exact ⟨rfl, rfl⟩

theorem field_eq_ok {α : Type} {field : String} {r : Check.Result α} {a : α}
    (h : Check.field field r = .ok a) : r = .ok a := by
  cases r with
  | error c => cases h
  | ok b =>
    cases h
    rfl

/-- What a definition has of its proposal, of the definition that stood under its name before, and of the
moment at which it was made. -/
structure Makes (p : Proposal) (existing : Option Definition) (now : Timestamp) (d : Definition) : Prop where
  name : Check.text p.name = .ok d.name
  type : Check.text p.type = .ok d.type
  spec : ∃ m, mappingOf p.spec = .ok m ∧ Definition.checkSpec (.map m) = .ok d.spec
  description : Check.optionalText p.description = .ok d.description
  created : d.created = existing.elim now (·.created)
  updated : d.updated = now

theorem makes_of_definitionOf {existing : Option Definition} (h : definitionOf p existing now = .ok d) :
    Makes p existing now d := by
  unfold definitionOf at h
  split at h
  next => cases h
  next m hm =>
    split at h
    next => cases h
    next c hc =>
      cases h
      obtain ⟨⟨name, type, spec, description⟩, hboth, rfl⟩ := map_eq_ok hc
      obtain ⟨hname, hrest⟩ := both_eq_ok hboth
      obtain ⟨htype, hrest⟩ := both_eq_ok hrest
      obtain ⟨hspec, hdescription⟩ := both_eq_ok hrest
      exact ⟨field_eq_ok hname, field_eq_ok htype, ⟨m, hm, hspec⟩, field_eq_ok hdescription, rfl, rfl⟩

theorem definitionOf_of_makes {existing : Option Definition} (h : Makes p existing now d) :
    definitionOf p existing now = .ok d := by
  obtain ⟨m, hm, hspec⟩ := h.spec
  have hcontent : contentOf p m = .ok ⟨d.name, d.type, d.spec, d.description⟩ := by
    simp only [contentOf, Definition.checkContent, h.name, h.type, hspec, h.description, Check.field,
      Checked.both, Except.map]
  simp only [definitionOf, hm, hcontent, Definition.ofContent]
  rw [← h.created, ← h.updated]

/-- Under its name is what was defined last. -/
theorem mem_of_define (hdefine : s.define registered clock p = (.ok d, t, clock')) :
    ∃ name, (name, d) ∈ t.entries := by
  obtain ⟨-, hput, -⟩ := define_eq_ok hdefine
  obtain ⟨key, -, -, rfl⟩ := put_eq_ok hput
  exact Mapping.exists_mem_insert

/-- A definition that is made under a text is entered. -/
theorem enter_of_define {name : String} (hp : p.name = .text name)
    (hdefine : s.define registered clock p = (.ok d, t, clock')) :
    d.name = name ∧ t = s.enter d ∧ Makes p (s.get? (.text name)) clock.now d := by
  obtain ⟨-, hput, -⟩ := define_eq_ok hdefine
  obtain ⟨key, hkey, hdefinition, rfl⟩ := put_eq_ok hput
  have hmakes := makes_of_definitionOf hdefinition
  have hname := hmakes.name
  rw [hp] at hkey hname
  cases hkey
  cases hname
  exact ⟨rfl, rfl, hmakes⟩

theorem Named.define {name : String} (h : s.Named) (hp : p.name = .text name)
    (hdefine : s.define registered clock p = (.ok d, t, clock')) : t.Named := by
  obtain ⟨-, rfl, -⟩ := enter_of_define hp hdefine
  exact h.enter d

theorem Mirrors.define (h : s.Mirrors t) (hdefine : s.define registered clock p = (.ok d, u, clock')) :
    ∃ u', t.define registered clock p = (.ok d, u', clock') ∧ u.Mirrors u' := by
  obtain ⟨haccept, hput, rfl⟩ := define_eq_ok hdefine
  obtain ⟨name, hname, hdefinition, rfl⟩ := put_eq_ok hput
  have hsame : definitionOf p (t.get? name) clock.now = .ok d := by
    rw [← hdefinition]
    simp only [definitionOf, h.created name clock.now]
  refine ⟨⟨Mapping.insert t.entries name d⟩, ?_, Mapping.Agree.insert h name (.refl d)⟩
  simp only [Store.define, haccept, put, hname, hsame]

/-! ### Documents -/

variable {document : Value} {records : List Value}

/-- A document makes the same of every store, or it cannot be gone through and leaves every store as it
was. -/
theorem deserialize_cases (document : Value) :
    (∃ f, ∀ s : Store, s.deserialize document = (.error f, s)) ∨
      ∃ t notices, ∀ s : Store, s.deserialize document = (.ok notices, t) := by
  unfold deserialize
  cases recordsOf document with
  | error f => exact .inl ⟨f, fun _ => rfl⟩
  | ok records => exact .inr ⟨_, _, fun _ => rfl⟩

theorem deserialize_of_error {f : Fault} (h : (s.deserialize document).1 = .error f) :
    s.deserialize document = (.error f, s) := by
  rcases deserialize_cases document with ⟨g, hall⟩ | ⟨t, notices, hall⟩
  · rw [hall] at h ⊢
    cases h
    rfl
  · rw [hall] at h
    cases h

theorem serialize_eq_ok (h : s.serialize = .ok document) :
    ∃ records, List.Forall₂ (fun d r => d.document = .ok r) s.list records ∧
      document = .record [("iterables", .list records)] := by
  obtain ⟨records, hrecords, rfl⟩ := map_eq_ok h
  exact ⟨records, mapM_eq_ok hrecords, rfl⟩

theorem serialize_plain (h : s.serialize = .ok document) : document.Plain := by
  obtain ⟨records, hrecords, rfl⟩ := serialize_eq_ok h
  have hplain : ∀ r ∈ records, r.Plain := by
    clear h
    generalize s.list = ds at hrecords
    induction hrecords with
    | nil => exact List.forall_mem_nil _
    | cons hd _ ih => exact List.forall_mem_cons.2 ⟨Definition.document_plain hd, ih⟩
  refine Value.record_plain (by simp) fun f hf => ?_
  obtain rfl := List.mem_singleton.1 hf
  exact .list hplain

theorem recordsOf_record (records : List Value) :
    recordsOf (.record [("iterables", .list records)]) = .ok records := by
  have hlisted : Mapping.getText? [(Key.text "iterables", Value.list records)] "iterables" =
      some (.list records) := by
    simp [Mapping.getText?, Mapping.get?, Mapping.same_text]
  simp only [recordsOf, Value.record, List.map_cons, List.map_nil, hlisted]
  cases records <;> rfl

/-- Records that hold definitions are put in one after another. -/
theorem loadAll_fst (s : Store) (records : List Value) :
    (loadAll s records).1 = (records.filterMap fun r => (Definition.check r).toOption).foldl enter s := by
  induction records generalizing s with
  | nil => rfl
  | cons r records ih =>
    rw [loadAll, load]
    cases hcheck : Definition.check r with
    | error issues =>
      rw [List.filterMap_cons_none (by rw [hcheck]; rfl)]
      exact ih s
    | ok d =>
      rw [List.filterMap_cons_some (by rw [hcheck]; rfl)]
      exact ih _

/-- Of records that all hold definitions, none is left out. -/
theorem loadAll_of_check {ds : List Definition}
    (h : List.Forall₂ (fun r d => Definition.check r = .ok d) records ds) (s : Store) :
    loadAll s records = (⟨Mapping.update s.entries (ds.map fun d => (.text d.name, d))⟩, []) := by
  induction h generalizing s with
  | nil => rfl
  | cons hd _ ih =>
    simp only [loadAll, load, hd, ih, List.map_cons, List.nil_append]
    rfl

theorem named_update (hs : s.Named) (ds : List Definition) :
    (⟨Mapping.update s.entries (ds.map fun d => (.text d.name, d))⟩ : Store).Named := by
  induction ds generalizing s with
  | nil => exact hs
  | cons d ds ih => exact ih (hs.enter d)

/-- Definitions that are read from records stand for those that the records were made of. -/
theorem checks_of_documents {ds : List Definition}
    (h : List.Forall₂ (fun d r => d.document = .ok r) ds records) :
    ∃ es, List.Forall₂ (fun r e => Definition.check r = .ok e) records es ∧
      List.Forall₂ Definition.Mirrors es ds := by
  induction h with
  | nil => exact ⟨[], .nil, .nil⟩
  | cons hd _ ih =>
    obtain ⟨e, he, hmirrors⟩ := Definition.check_document hd
    obtain ⟨es, hes, hall⟩ := ih
    exact ⟨e :: es, .cons he hes, .cons hmirrors hall⟩

/-- Plain definitions are read from their records as they were. -/
theorem checks_of_plain {ds es : List Definition} (h : List.Forall₂ (fun d r => d.document = .ok r) ds records)
    (hes : List.Forall₂ (fun r e => Definition.check r = .ok e) records es) (hplain : ∀ d ∈ ds, d.Plain) :
    es = ds := by
  induction h generalizing es with
  | nil =>
    cases hes
    rfl
  | cons hd _ ih =>
    cases hes with
    | cons he hes =>
      obtain ⟨hdPlain, hrest⟩ := List.forall_mem_cons.1 hplain
      cases he.symm.trans (hdPlain.check_document hd)
      rw [ih hes hrest]

/-- Every definition stands under its own name and has a document that some bytes encode. -/
structure Settled (s : Store) : Prop extends Named s where
  encodable : ∀ e ∈ s.entries, e.2.Encodable

theorem settled_empty : empty.Settled := ⟨named_empty, List.forall_mem_nil _⟩

/-- No half stands in a text that names a definition. -/
theorem Settled.whole_of_contains (hs : s.Settled) {name : String} (h : s.contains (.text name) = true) :
    Text.Whole name.toList := by
  obtain ⟨e, he, rfl⟩ := hs.name_of_contains h
  exact (hs.encodable e he).whole.1

/-- No half stands in the texts that a definition was made with for its name and its type. -/
theorem Settled.whole_of_define (ht : t.Settled) {name type : String} (hname : p.name = .text name)
    (htype : p.type = .text type) (hdefine : s.define registered clock p = (.ok d, t, clock')) :
    Text.Whole name.toList ∧ Text.Whole type.toList := by
  obtain ⟨found, hmem⟩ := mem_of_define hdefine
  obtain ⟨rfl, -, hmakes⟩ := enter_of_define hname hdefine
  have hmade := hmakes.type
  rw [htype] at hmade
  obtain rfl : type = d.type := Except.ok.inj hmade
  exact (ht.encodable _ hmem).whole

theorem Settled.serialize (hs : s.Settled) : ∃ document, s.serialize = .ok document := by
  have hrecords : ∃ records, s.list.mapM Definition.document = .ok records := by
    have hencodable := hs.encodable
    unfold list
    clear hs
    generalize s.entries = entries at hencodable
    induction entries with
    | nil => exact ⟨[], rfl⟩
    | cons e entries ih =>
      obtain ⟨⟨v, hv, -⟩, hrest⟩ := List.forall_mem_cons.1 hencodable
      obtain ⟨records, hrecords⟩ := ih hrest
      refine ⟨v :: records, ?_⟩
      rw [List.map_cons, List.mapM_cons, hv, hrecords]
      rfl
  obtain ⟨records, hrecords⟩ := hrecords
  refine ⟨.record [("iterables", .list records)], ?_⟩
  rw [Store.serialize, hrecords]
  rfl

/-- If some bytes encode the document of a store, they encode that of each of its definitions. -/
theorem encodable_of_serialize (h : s.serialize = .ok document) (hencodable : Json.Encodable document) :
    ∀ d ∈ s.list, d.Encodable := by
  obtain ⟨records, hrecords, rfl⟩ := serialize_eq_ok h
  have hlist : Json.Encodable (.list records) :=
    (hencodable.entry (e := (.text "iterables", .list records)) (by simp)).2
  intro d hd
  obtain ⟨r, hr, hdocument⟩ := exists_of_forall₂ hrecords hd
  exact ⟨r, hdocument, hlist.item hr⟩

/-- Under their own names, definitions that stand for those of a store mirror it. -/
theorem Named.mirrors_of {es : List Definition} (hs : s.Named)
    (h : List.Forall₂ Definition.Mirrors es s.list) :
    Mirrors ⟨es.map fun e => (.text e.name, e)⟩ s := by
  have hnames := hs.names
  unfold Mirrors Mapping.Agree
  unfold list at h
  clear hs
  generalize s.entries = entries at *
  induction entries generalizing es with
  | nil =>
    cases h
    exact .nil
  | cons entry entries ih =>
    obtain ⟨hname, hrest⟩ := List.forall_mem_cons.1 hnames
    cases h with
    | cons he h => exact .cons ⟨(congrArg Key.text he.name).trans hname.symm, he⟩ (ih h hrest)

/-- Definitions under their own names are all there is to a store. -/
theorem Named.of_list (hs : s.Named) : (⟨s.list.map fun d => (.text d.name, d)⟩ : Store) = s := by
  have hentries : s.entries.map ((fun d => (Key.text d.name, d)) ∘ (·.2)) = s.entries.map id :=
    List.map_congr_left fun e he => by rw [Function.comp_apply, id, ← hs.names e he]
  rw [list, List.map_map, hentries, List.map_id]

theorem Mirrors.size (h : s.Mirrors t) : s.size = t.size := List.Forall₂.length_eq h

/-- What definitions are told by, their specs apart, is told of both alike. -/
theorem Mirrors.faces (h : s.Mirrors t) : s.list.map Definition.face = t.list.map Definition.face := by
  simp only [list, List.map_map]
  exact Mapping.Agree.map_eq h fun _ _ hmirrors => hmirrors.face

/-- The store that is read from the document of another holds nothing that does not stand for a definition
there. It mirrors that store if the definitions of that stand under their own names, and is that store if
they are plain as well. -/
theorem deserialize_serialize (h : s.serialize = .ok document) :
    ∃ t, (∀ r : Store, r.deserialize document = (.ok [], t)) ∧ t.Named ∧ (∀ e ∈ t.entries, ∃ d ∈ s.list, e.2.Mirrors d) ∧
      (s.Named → t.Mirrors s) ∧ (s.Named → (∀ d ∈ s.list, d.Plain) → t = s) := by
  obtain ⟨records, hrecords, rfl⟩ := serialize_eq_ok h
  obtain ⟨es, hes, hmirrors⟩ := checks_of_documents hrecords
  have hnamed : (⟨Mapping.ofEntries (es.map fun e => (.text e.name, e))⟩ : Store).Named :=
    named_update named_empty es
  have hall : Mapping.All (fun e => ∃ d ∈ s.list, e.Mirrors d) (es.map fun e => (Key.text e.name, e)) :=
    ⟨List.forall_mem_map.2 fun e _ => ⟨e.name, rfl⟩,
      List.forall_mem_map.2 fun e he => exists_of_forall₂ hmirrors he⟩
  have hentries : s.Named → Mapping.ofEntries (es.map fun e => (Key.text e.name, e)) =
      es.map fun e => (Key.text e.name, e) := by
    intro hs
    refine Mapping.ofEntries_of_distinct ?_
    unfold Mapping.Distinct
    rw [Mapping.Agree.keys_eq (hs.mirrors_of hmirrors)]
    exact hs.distinct
  refine ⟨_, fun r => ?_, hnamed, hall.ofEntries.values, fun hs => ?_, fun hs hplain => ?_⟩
  · simp only [deserialize, recordsOf_record, loadAll_of_check hes]
    rfl
  · rw [hentries hs]
    exact hs.mirrors_of hmirrors
  · rw [hentries hs, checks_of_plain hrecords hes hplain]
    exact hs.of_list

end Store

end Foreach

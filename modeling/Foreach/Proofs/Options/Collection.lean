import Foreach.Proofs.Options.Reading
import Foreach.Proofs.Value.Mapping

/-!
What the uses of options add up to.

A spec has an entry for each option that is used, in the order of the first uses. What stands there is the value
of the last use, or, if the option may be repeated, a list of the values of all uses in order. This determines
the spec, and a spec that the schema allows is what one use for each of its values adds up to.
-/

namespace Foreach

/-- A value that an option of the kind takes. -/
inductive OptionKind.Admits : OptionKind → Value → Prop
  | text (s : String) : Admits .text (.text s)
  | flag (b : Bool) : Admits .flag (.bool b)

/-- What a spec may hold for an option: one value, or a list of some if the option may be repeated. -/
inductive OptionSpec.Admits (o : OptionSpec) : Value → Prop
  | single {v : Value} (hmultiple : o.multiple = false) (hv : o.kind.Admits v) : Admits o v
  | multiple {vs : List Value} (hmultiple : o.multiple = true) (hne : vs ≠ [])
      (hvs : ∀ v ∈ vs, o.kind.Admits v) : Admits o (.list vs)

namespace Options

variable {schema : OptionSchema} {spec : Mapping} {name : String} {o : OptionSpec} {v : Value}
  {args : List String} {before uses : List Use} {use : Use}

/-- A use that the schema allows: of an option that it declares, with a value that this takes. -/
def Use.IsAllowed (schema : OptionSchema) (use : Use) : Prop :=
  ∃ o, schema.lookup use.name = some o ∧ o.kind.Admits use.value

/-- A spec that the schema allows: each key is an option, with what that takes. -/
structure Conforms (schema : OptionSchema) (spec : Mapping) : Prop where
  distinct : Mapping.Distinct spec
  entries : ∀ e ∈ spec, ∃ name o, e.1 = .text name ∧ schema.lookup name = some o ∧ o.Admits e.2

/-- The values that an option is given, in order. -/
def valuesOf (name : String) (uses : List Use) : List Value := (uses.filter (·.name = name)).map (·.value)

theorem valuesOf_append (name : String) (before uses : List Use) :
    valuesOf name (before ++ uses) = valuesOf name before ++ valuesOf name uses := by
  simp [valuesOf]

theorem mem_valuesOf : v ∈ valuesOf name uses ↔ ⟨name, v⟩ ∈ uses := by
  simp only [valuesOf, List.mem_map, List.mem_filter, decide_eq_true_eq]
  constructor
  · rintro ⟨⟨_, _⟩, ⟨hmem, rfl⟩, rfl⟩
    exact hmem
  · intro hmem
    exact ⟨_, ⟨hmem, rfl⟩, rfl⟩

theorem valuesOf_eq_nil_iff : valuesOf name uses = [] ↔ name ∉ uses.map (·.name) := by
  simp only [List.eq_nil_iff_forall_not_mem, mem_valuesOf, List.mem_map, not_exists, not_and]
  constructor
  · rintro h ⟨_, v⟩ hmem rfl
    exact h v hmem
  · intro h v hmem
    exact h _ hmem rfl

/-- What uses add up to. -/
structure Collects (schema : OptionSchema) (uses : List Use) (spec : Mapping) : Prop where
  keys : Mapping.keys spec = (uses.map (·.name)).eraseDups.map .text
  single : ∀ name o, schema.lookup name = some o → o.multiple = false →
    Mapping.getText? spec name = (valuesOf name uses).getLast?
  multiple : ∀ name o, schema.lookup name = some o → o.multiple = true → valuesOf name uses ≠ [] →
    Mapping.getText? spec name = some (.list (valuesOf name uses))

theorem collects_nil : Collects schema [] [] where
  keys := rfl
  single _ _ _ _ := rfl
  multiple _ _ _ _ hne := absurd rfl hne

namespace Collects

theorem mem_keys_iff (h : Collects schema uses spec) :
    .text name ∈ Mapping.keys spec ↔ name ∈ uses.map (·.name) := by
  rw [h.keys, List.mem_map_of_injective fun _ _ => Key.text.inj, List.mem_eraseDups]

theorem distinct (h : Collects schema uses spec) : Mapping.Distinct spec := by
  rw [Mapping.Distinct, h.keys, List.pairwise_map]
  refine (Mapping.nodup_eraseDups _).imp fun hne => ?_
  rwa [Mapping.same_text, beq_eq_false_iff_ne]

theorem texts (h : Collects schema uses spec) : Mapping.Texts spec := by
  intro e he
  have hkey : e.1 ∈ Mapping.keys spec := List.mem_map_of_mem he
  rw [h.keys] at hkey
  obtain ⟨name, -, hname⟩ := List.mem_map.1 hkey
  exact ⟨name, hname.symm⟩

/-- The list that a repeated option has built up so far. -/
theorem collected_eq (h : Collects schema uses spec) (hdeclared : schema.lookup name = some o)
    (hmultiple : o.multiple = true) : collected spec name = valuesOf name uses := by
  by_cases hvalues : valuesOf name uses = []
  · have habsent : Mapping.getText? spec name = none :=
      Mapping.getText?_eq_none_iff.2 (mt h.mem_keys_iff.1 (valuesOf_eq_nil_iff.1 hvalues))
    rw [collected, habsent, hvalues]
  · rw [collected, h.multiple name o hdeclared hmultiple hvalues]

theorem put (h : Collects schema uses spec) (hdeclared : schema.lookup name = some o) (v : Value) :
    Collects schema (uses ++ [⟨name, v⟩]) (put spec name o v) where
  keys := by
    rw [Options.put, List.map_append]
    by_cases hname : name ∈ uses.map (·.name)
    · rw [Mapping.keys_setText_of_mem (h.mem_keys_iff.2 hname), h.keys]
      exact congrArg _ (Mapping.eraseDups_concat_of_mem hname).symm
    · rw [Mapping.keys_setText_of_notMem (mt h.mem_keys_iff.1 hname), h.keys]
      have hfirst : (uses.map (·.name) ++ [name]).eraseDups = (uses.map (·.name)).eraseDups ++ [name] :=
        Mapping.eraseDups_concat_of_notMem hname
      exact (congrArg (List.map Key.text) hfirst).trans List.map_append |>.symm
  single other p hother hsingle := by
    rw [Options.put, Mapping.getText?_setText, valuesOf_append]
    by_cases hname : other = name
    · subst hname
      obtain rfl := Option.some.inj (hdeclared.symm.trans hother)
      simp [hsingle, valuesOf]
    · rw [if_neg hname, h.single other p hother hsingle]
      simp [valuesOf, Ne.symm hname]
  multiple other p hother hmultiple hne := by
    rw [Options.put, Mapping.getText?_setText, valuesOf_append]
    by_cases hname : other = name
    · subst hname
      obtain rfl := Option.some.inj (hdeclared.symm.trans hother)
      simp [hmultiple, valuesOf, h.collected_eq hdeclared hmultiple]
    · have hsame : valuesOf other [⟨name, v⟩] = [] := by simp [valuesOf, Ne.symm hname]
      rw [valuesOf_append, hsame, List.append_nil] at hne
      rw [if_neg hname, h.multiple other p hother hmultiple hne, hsame, List.append_nil]

/-- Uses of declared options add up to one spec. -/
theorem unique {other : Mapping} (h : Collects schema uses spec) (h' : Collects schema uses other)
    (hallowed : ∀ use ∈ uses, use.IsAllowed schema) : spec = other := by
  refine Mapping.eq_of_getText? h.distinct h.texts (h.keys.trans h'.keys.symm) fun name hname => ?_
  have hused : name ∈ uses.map (·.name) := h.mem_keys_iff.1 hname
  obtain ⟨use, huse, rfl⟩ := List.mem_map.1 hused
  obtain ⟨o, ho, -⟩ := hallowed use huse
  cases hmultiple : o.multiple with
  | false => rw [h.single _ o ho hmultiple, h'.single _ o ho hmultiple]
  | true =>
    have hvalues : valuesOf use.name uses ≠ [] := fun hnil => valuesOf_eq_nil_iff.1 hnil hused
    rw [h.multiple _ o ho hmultiple hvalues, h'.multiple _ o ho hmultiple hvalues]

end Collects

/-! ### Specs that are parsed -/

theorem Says.admits {kind : OptionKind} {inline? : Option String} {behind : List String}
    (h : Says kind inline? behind v) : kind.Admits v := by
  cases h with
  | joined s | apart s => exact .text s
  | bare => exact .flag true
  | word => exact .flag _

theorem Writes.allowed (h : Writes schema uses args) : ∀ use ∈ uses, use.IsAllowed schema := by
  induction h with
  | nil => exact List.forall_mem_nil _
  | cons hdeclared hsaid _ ih => exact List.forall_mem_cons.2 ⟨⟨_, hdeclared, hsaid.admits⟩, ih⟩

/-- What uses of options add up to is a spec that the schema allows. -/
theorem Collects.conforms (h : Collects schema uses spec)
    (hallowed : ∀ use ∈ uses, use.IsAllowed schema) : Conforms schema spec := by
  refine ⟨h.distinct, fun e he => ?_⟩
  obtain ⟨key, v⟩ := e
  obtain ⟨name, rfl⟩ : ∃ name, key = .text name := h.texts _ he
  have hused : name ∈ uses.map (·.name) := h.mem_keys_iff.1 (List.mem_map_of_mem he)
  obtain ⟨use, huse, rfl⟩ := List.mem_map.1 hused
  obtain ⟨o, hdeclared, -⟩ := hallowed use huse
  have hvalue := Mapping.getText?_of_mem h.distinct he
  have hvalues : ∀ w ∈ valuesOf use.name uses, o.kind.Admits w := by
    intro w hw
    obtain ⟨p, hp, hadmitted⟩ := hallowed _ (mem_valuesOf.1 hw)
    obtain rfl := Option.some.inj (hdeclared.symm.trans hp)
    exact hadmitted
  refine ⟨use.name, o, rfl, hdeclared, ?_⟩
  cases hmultiple : o.multiple with
  | false =>
    rw [h.single _ o hdeclared hmultiple] at hvalue
    exact .single hmultiple (hvalues v (List.mem_of_getLast? hvalue))
  | true =>
    have hne : valuesOf use.name uses ≠ [] := fun hnil => valuesOf_eq_nil_iff.1 hnil hused
    rw [h.multiple _ o hdeclared hmultiple hne] at hvalue
    obtain rfl := Option.some.inj hvalue
    exact .multiple hmultiple hne hvalues

/-- Arguments that are read add their uses to what a spec has collected, and what comes behind them is read as
if it began there. -/
theorem Collects.exists_parseFrom (h : Collects schema before spec) (hwrites : Writes schema uses args)
    (hlegible : Legible uses) : ∃ t, Collects schema (before ++ uses) t ∧
      ∀ rest, parseFrom schema spec (args ++ rest) = parseFrom schema t rest := by
  induction hwrites generalizing before spec with
  | nil => exact ⟨spec, by rwa [List.append_nil], fun rest => rfl⟩
  | @cons a o v behind uses args hdeclared hsaid _ ih =>
    obtain ⟨hname, hrest⟩ := legible_cons.1 hlegible
    obtain ⟨t, ht, hparse⟩ := ih (h.put hdeclared v) hrest
    refine ⟨t, by rwa [List.append_assoc] at ht, fun rest => ?_⟩
    rw [List.cons_append, List.append_assoc, parseFrom_of_said hname hdeclared hsaid, hparse]

/-- Arguments are accepted just if they can be read, and the spec is what the uses that they write add up to
together with those before them. -/
theorem Collects.parseFrom_eq_ok_iff (h : Collects schema before spec)
    (hallowed : ∀ use ∈ before, use.IsAllowed schema) {t : Mapping} : parseFrom schema spec args = .ok t ↔
      ∃ uses, Legible uses ∧ Writes schema uses args ∧ Collects schema (before ++ uses) t := by
  have accepted : ∀ {uses}, Legible uses → Writes schema uses args →
      ∃ t, Collects schema (before ++ uses) t ∧ parseFrom schema spec args = .ok t := by
    intro uses hlegible hwrites
    obtain ⟨t, ht, hparse⟩ := h.exists_parseFrom hwrites hlegible
    refine ⟨t, ht, ?_⟩
    have hall := hparse []
    rwa [List.append_nil, parseFrom] at hall
  constructor
  · intro hok
    obtain ⟨uses, hlegible, hwrites⟩ | ⟨m, hm⟩ := written_or_refused schema args
    · obtain ⟨t, ht, hparse⟩ := accepted hlegible hwrites
      obtain rfl := Except.ok.inj (hok.symm.trans hparse)
      exact ⟨uses, hlegible, hwrites, ht⟩
    · cases hok.symm.trans (hm spec)
  · rintro ⟨uses, hlegible, hwrites, ht⟩
    obtain ⟨t', ht', hparse⟩ := accepted hlegible hwrites
    rw [hparse, ht.unique ht' (List.forall_mem_append.2 ⟨hallowed, hwrites.allowed⟩)]

theorem parse_eq_ok_iff : parse schema args = .ok spec ↔
    ∃ uses, Legible uses ∧ Writes schema uses args ∧ Collects schema uses spec :=
  collects_nil.parseFrom_eq_ok_iff (List.forall_mem_nil _)

/-- Whether arguments are accepted has nothing to do with those before them. -/
theorem Collects.succeeds_iff (h : Collects schema before spec) (hallowed : ∀ use ∈ before, use.IsAllowed schema) :
    (∃ t, parseFrom schema spec args = .ok t) ↔ ∃ uses, Legible uses ∧ Writes schema uses args := by
  simp only [h.parseFrom_eq_ok_iff hallowed]
  constructor
  · rintro ⟨t, uses, hlegible, hwrites, -⟩
    exact ⟨uses, hlegible, hwrites⟩
  · rintro ⟨uses, hlegible, hwrites⟩
    obtain ⟨t, ht, -⟩ := h.exists_parseFrom hwrites hlegible
    exact ⟨t, uses, hlegible, hwrites, ht⟩

theorem parse_succeeds_iff :
    (∃ spec, parse schema args = .ok spec) ↔ ∃ uses, Legible uses ∧ Writes schema uses args :=
  collects_nil.succeeds_iff (List.forall_mem_nil _)

/-! ### Specs that are written -/

/-- The values in an entry: the elements of a list, or one. -/
def parts : Value → List Value
  | .list vs => vs
  | v => [v]

/-- One use for each value of a spec, in order. -/
def usesOf (spec : Mapping) : List Use := spec.flatMap fun (key, v) => (parts v).map (Use.mk key.display)

theorem usesOf_cons (name : String) (v : Value) (spec : Mapping) :
    usesOf ((.text name, v) :: spec) = (parts v).map (Use.mk name) ++ usesOf spec := rfl

theorem OptionKind.Admits.parts_eq {kind : OptionKind} (h : kind.Admits v) : parts v = [v] := by
  cases h <;> rfl

theorem parts_of_admits (h : o.Admits v) : parts v ≠ [] ∧ ∀ w ∈ parts v, o.kind.Admits w := by
  cases h with
  | single _ hv =>
    rw [OptionKind.Admits.parts_eq hv]
    exact ⟨List.cons_ne_nil v [], fun w hw => List.mem_singleton.1 hw ▸ hv⟩
  | multiple _ hne hvs => exact ⟨hne, hvs⟩

theorem valuesOf_map (name other : String) (vs : List Value) :
    valuesOf other (vs.map (Use.mk name)) = if name = other then vs else [] := by
  by_cases hname : name = other <;> simp [valuesOf, hname, List.filter_map, Function.comp_def]

/-- A spec gives an option what it holds for it. -/
theorem valuesOf_usesOf (hdistinct : Mapping.Distinct spec) (htexts : Mapping.Texts spec) (name : String) :
    valuesOf name (usesOf spec) = (Mapping.getText? spec name).elim [] parts := by
  induction spec with
  | nil => rfl
  | cons e spec ih =>
    obtain ⟨key, v⟩ := e
    obtain ⟨first, rfl⟩ : ∃ first, key = .text first := htexts _ List.mem_cons_self
    have hrest := ih hdistinct.of_cons fun e he => htexts e (List.mem_cons_of_mem _ he)
    rw [usesOf_cons, valuesOf_append, valuesOf_map, hrest, Mapping.getText?_cons]
    by_cases hname : first = name
    · subst hname
      rw [if_pos rfl, if_pos (Mapping.same_text_iff.2 rfl), Mapping.getText?_eq_none_iff.2 hdistinct.notMem_keys]
      exact List.append_nil _
    · rw [if_neg hname, if_neg (mt Mapping.same_text_iff.1 (mt Key.text.inj hname)), List.nil_append]

namespace Conforms

theorem texts (h : Conforms schema spec) : Mapping.Texts spec := by
  intro e he
  obtain ⟨name, o, hkey, -⟩ := h.entries e he
  exact ⟨name, hkey⟩

theorem of_cons {e : Key × Value} (h : Conforms schema (e :: spec)) : Conforms schema spec :=
  ⟨h.distinct.of_cons, fun f hf => h.entries f (List.mem_cons_of_mem _ hf)⟩

theorem admits (h : Conforms schema spec) (hdeclared : schema.lookup name = some o)
    (hvalue : Mapping.getText? spec name = some v) : o.Admits v := by
  obtain ⟨before, after, rfl, -⟩ := Mapping.getText?_eq_some_iff.1 hvalue
  obtain ⟨other, p, hkey, hp, hadmits⟩ := h.entries _ (List.mem_append_right before List.mem_cons_self)
  obtain rfl := Key.text.inj hkey
  obtain rfl := Option.some.inj (hdeclared.symm.trans hp)
  exact hadmits

theorem names_usesOf (h : Conforms schema spec) :
    ((usesOf spec).map (·.name)).eraseDups.map Key.text = Mapping.keys spec := by
  induction spec with
  | nil => rfl
  | cons e spec ih =>
    obtain ⟨key, v⟩ := e
    obtain ⟨name, o, hkey, hdeclared, hadmits⟩ := h.entries _ List.mem_cons_self
    obtain rfl : key = .text name := hkey
    have hnew : name ∉ (usesOf spec).map (·.name) := by
      rw [← valuesOf_eq_nil_iff, valuesOf_usesOf h.of_cons.distinct h.of_cons.texts,
        Mapping.getText?_eq_none_iff.2 h.distinct.notMem_keys]
      rfl
    have hrepeated : ((parts v).map (Use.mk name)).map (·.name) = List.replicate (parts v).length name := by
      simp [Function.comp_def]
    have hvalues : (parts v).length ≠ 0 := mt List.length_eq_zero_iff.1 (parts_of_admits hadmits).1
    rw [usesOf_cons, List.map_append, hrepeated, Mapping.eraseDups_replicate_append hvalues hnew, List.map_cons,
      ih h.of_cons]
    rfl

/-- A spec that the schema allows is what its uses add up to. -/
theorem collects (h : Conforms schema spec) : Collects schema (usesOf spec) spec where
  keys := h.names_usesOf.symm
  single name o hdeclared hsingle := by
    rw [valuesOf_usesOf h.distinct h.texts]
    cases hvalue : Mapping.getText? spec name with
    | none => rfl
    | some v =>
      cases h.admits hdeclared hvalue with
      | single _ hv => rw [Option.elim_some, OptionKind.Admits.parts_eq hv, List.getLast?_singleton]
      | multiple hmultiple => cases hsingle.symm.trans hmultiple
  multiple name o hdeclared hmultiple hne := by
    rw [valuesOf_usesOf h.distinct h.texts] at hne ⊢
    cases hvalue : Mapping.getText? spec name with
    | none => exact absurd (by rw [hvalue]; rfl) hne
    | some v =>
      cases h.admits hdeclared hvalue with
      | single hsingle => cases hsingle.symm.trans hmultiple
      | multiple => rfl

theorem allowed (h : Conforms schema spec) : ∀ use ∈ usesOf spec, use.IsAllowed schema := by
  intro use huse
  obtain ⟨⟨key, v⟩, he, hmem⟩ := List.mem_flatMap.1 huse
  obtain ⟨w, hw, rfl⟩ := List.mem_map.1 hmem
  obtain ⟨name, o, hkey, hdeclared, hadmits⟩ := h.entries _ he
  obtain rfl : key = .text name := hkey
  exact ⟨o, hdeclared, (parts_of_admits hadmits).2 w hw⟩

end Conforms

theorem exists_writes (hallowed : ∀ use ∈ uses, use.IsAllowed schema) : ∃ args, Writes schema uses args := by
  induction uses with
  | nil => exact ⟨[], .nil⟩
  | cons use uses ih =>
    obtain ⟨⟨o, hdeclared, hvalue⟩, hrest⟩ := List.forall_mem_cons.1 hallowed
    obtain ⟨args, hargs⟩ := ih hrest
    obtain ⟨name, v⟩ := use
    have hstated : ∃ inline? behind, Says o.kind inline? behind v := by
      generalize o.kind = kind at hvalue
      cases hvalue with
      | text s => exact ⟨_, _, .joined s⟩
      | flag b =>
        cases b with
        | true => exact ⟨_, _, .word isFlagWord_true⟩
        | false => exact ⟨_, _, .word isFlagWord_false⟩
    obtain ⟨inline?, behind, hsaid⟩ := hstated
    have hwrites : Writes schema (⟨(Argument.mk name inline?).name, v⟩ :: uses) _ := .cons hdeclared hsaid hargs
    exact ⟨_, hwrites⟩

end Options
end Foreach

import Foreach.Proofs.Options.Collection

/-!
What becomes of provider arguments.

The arguments that are accepted are those that can be read, in one way, as uses of declared options. Their spec is
one that the schema allows, and it is all that matters of them for what comes behind them. In turn every spec that
the schema allows comes back from the arguments that write it, however each of its values is written.
-/

namespace Foreach.Options

variable {schema : OptionSchema} {spec : Mapping} {args : List String} {before uses : List Use}

/-- More arguments are read as if they were to add to the spec of those before them. -/
theorem parse_append (h : parse schema args = .ok spec) (rest : List String) :
    parse schema (args ++ rest) = parseFrom schema spec rest := by
  obtain ⟨uses, hlegible, hwrites, hcollects⟩ := parse_eq_ok_iff.1 h
  obtain ⟨t, ht, hparse⟩ := collects_nil.exists_parseFrom hwrites hlegible
  rw [hcollects.unique ht hwrites.allowed]
  exact hparse rest

theorem parse_eq_error {f : Fault} (h : parse schema args = .error f) : ∃ m, f = .usage m := by
  obtain ⟨uses, hwritten⟩ | ⟨m, hm⟩ := written_or_refused schema args
  · obtain ⟨t, ht⟩ := parse_succeeds_iff.2 ⟨uses, hwritten⟩
    cases h.symm.trans ht
  · exact ⟨m, Except.error.inj (h.symm.trans (hm []))⟩

/-- Arguments are accepted just if they can be read as uses of declared options, which they can in one way at most.
The spec has the options that are used in the order of their first uses, each with what its declaration allows:
the value of its last use, or the list of the values of all its uses. More arguments behind them are read from
that spec on, and are accepted just if they would be alone. Where arguments are not accepted, it is the usage
that is wrong. -/
theorem parse_reads_uses (schema : OptionSchema) (args : List String) :
    (∀ spec, parse schema args = .ok spec ↔
      ∃ uses, Legible uses ∧ Writes schema uses args ∧ Collects schema uses spec) ∧
    (∀ uses others, Legible uses → Writes schema uses args → Legible others → Writes schema others args →
      uses = others) ∧
    (∀ spec, parse schema args = .ok spec → Conforms schema spec ∧
      ∀ rest, parse schema (args ++ rest) = parseFrom schema spec rest ∧
        ((∃ t, parse schema (args ++ rest) = .ok t) ↔ ∃ t, parse schema rest = .ok t)) ∧
    ∀ f, parse schema args = .error f → ∃ m, f = .usage m := by
  refine ⟨fun spec => parse_eq_ok_iff, ?_, fun spec hspec => ?_, fun f => parse_eq_error⟩
  · intro uses others hlegible hwrites hlegible' hwrites'
    exact hwrites.unique hlegible hwrites' hlegible'
  · obtain ⟨uses, hlegible, hwrites, hcollects⟩ := parse_eq_ok_iff.1 hspec
    refine ⟨hcollects.conforms hwrites.allowed, fun rest => ⟨parse_append hspec rest, ?_⟩⟩
    rw [parse_append hspec rest, hcollects.succeeds_iff hwrites.allowed, parse_succeeds_iff]

/-- Two text options and two flags, of which one each may be repeated. -/
def sortsSchema : OptionSchema :=
  [("item", ⟨.text, true, none⟩), ("label", ⟨.text, false, none⟩), ("upper", ⟨.flag, false, none⟩),
    ("flag", ⟨.flag, true, none⟩)]

/-- Arguments that use an option again, and take an option's name for a value. -/
def repeatsArgs : List String := ["--label=a", "--item", "--label", "--flag=off", "--label", "b"]

def repeatsUses : List Use :=
  [⟨"label", .text "a"⟩, ⟨"item", .text "--label"⟩, ⟨"flag", .bool false⟩, ⟨"label", .text "b"⟩]

def repeatsSpec : Mapping :=
  [(.text "label", .text "b"), (.text "item", .list [.text "--label"]), (.text "flag", .list [.bool false])]

theorem repeatsArgs_write : Writes sortsSchema repeatsUses repeatsArgs := by
  have hargs : repeatsArgs = Argument.text ⟨"label", some "a"⟩ :: ([] ++ Argument.text ⟨"item", none⟩ ::
      (["--label"] ++ Argument.text ⟨"flag", some "off"⟩ ::
        ([] ++ Argument.text ⟨"label", none⟩ :: (["b"] ++ [])))) := by
    decide +kernel
  have hoff : IsFlagWord "off" false := by decide
  rw [hargs]
  exact .cons (a := ⟨"label", some "a"⟩) rfl (.joined _) <| .cons (a := ⟨"item", none⟩) rfl (.apart _) <|
    .cons (a := ⟨"flag", some "off"⟩) rfl (.word hoff) <| .cons (a := ⟨"label", none⟩) rfl (.apart _) .nil

theorem repeatsUses_collect : Collects sortsSchema repeatsUses repeatsSpec := by
  have hdeclared : sortsSchema.lookup "label" = some ⟨.text, false, none⟩ := rfl
  have hlabel : Collects sortsSchema [⟨"label", .text "a"⟩] _ := collects_nil.put hdeclared _
  have hitem : Collects sortsSchema (_ ++ [⟨"item", .text "--label"⟩]) _ := hlabel.put rfl _
  have hflag : Collects sortsSchema (_ ++ [⟨"flag", .bool false⟩]) _ := hitem.put rfl _
  exact hflag.put hdeclared _

theorem parse_reads_uses_repeats : parse sortsSchema repeatsArgs = .ok repeatsSpec ∧
    Conforms sortsSchema repeatsSpec ∧
      ∀ rest, parse sortsSchema (repeatsArgs ++ rest) = parseFrom sortsSchema repeatsSpec rest := by
  have hlegible : Legible repeatsUses := by
    simp [Legible, repeatsUses]
  obtain ⟨hread, -, haccepted, -⟩ := parse_reads_uses sortsSchema repeatsArgs
  have hparse : parse sortsSchema repeatsArgs = .ok repeatsSpec :=
    (hread _).2 ⟨_, hlegible, repeatsArgs_write, repeatsUses_collect⟩
  exact ⟨hparse, (haccepted _ hparse).1, fun rest => ((haccepted _ hparse).2 rest).1⟩

/-- No declared name has an equals sign in it, so all uses of declared options can be read. -/
theorem Writes.legible (hnames : ∀ entry ∈ schema, '=' ∉ entry.1.toList) (h : Writes schema uses args) :
    Legible uses := by
  intro use huse
  obtain ⟨o, hdeclared, -⟩ := h.allowed use huse
  obtain ⟨first, last, rfl, -⟩ := List.lookup_eq_some_iff.1 hdeclared
  exact hnames _ (List.mem_append_right first List.mem_cons_self)

/-- A spec that the schema allows can be written as arguments, one use for each value in the order of the spec, and
it is what comes back from them: whether the value of a text option is joined to its name or stands apart, whatever
it looks like, and whichever word says that a flag is set or not. -/
theorem parse_of_writes_spec (hnames : ∀ entry ∈ schema, '=' ∉ entry.1.toList) (hspec : Conforms schema spec) :
    (∃ args, Writes schema (usesOf spec) args) ∧
      ∀ args, Writes schema (usesOf spec) args → parse schema args = .ok spec :=
  ⟨exists_writes hspec.allowed, fun _ hwrites =>
    parse_eq_ok_iff.2 ⟨usesOf spec, hwrites.legible hnames, hwrites, hspec.collects⟩⟩

/-- A spec with texts that look like options. -/
def sortsSpec : Mapping :=
  [(.text "label", .text "--item=x"), (.text "item", .list [.text "", .text "a=b"]), (.text "upper", .bool true),
    (.text "flag", .list [.bool false, .bool true])]

def sortsArgs : List String :=
  ["--label", "--item=x", "--item=", "--item", "a=b", "--upper", "--flag=false", "--flag"]

theorem sortsSpec_conforms : Conforms sortsSchema sortsSpec where
  distinct := by simp [Mapping.Distinct, Mapping.keys, sortsSpec, Mapping.same_text]
  entries := by
    simp only [sortsSpec, List.forall_mem_cons]
    refine ⟨⟨"label", _, rfl, rfl, .single rfl (.text _)⟩, ⟨"item", _, rfl, rfl, .multiple rfl (by simp) ?_⟩,
      ⟨"upper", _, rfl, rfl, .single rfl (.flag _)⟩, ⟨"flag", _, rfl, rfl, .multiple rfl (by simp) ?_⟩,
      List.forall_mem_nil _⟩
    · exact List.forall_mem_cons.2 ⟨.text _, List.forall_mem_singleton.2 (.text _)⟩
    · exact List.forall_mem_cons.2 ⟨.flag _, List.forall_mem_singleton.2 (.flag _)⟩

theorem sortsArgs_write : Writes sortsSchema (usesOf sortsSpec) sortsArgs := by
  have hargs : sortsArgs = Argument.text ⟨"label", none⟩ :: (["--item=x"] ++ Argument.text ⟨"item", some ""⟩ ::
      ([] ++ Argument.text ⟨"item", none⟩ :: (["a=b"] ++ Argument.text ⟨"upper", none⟩ ::
        ([] ++ Argument.text ⟨"flag", some "false"⟩ :: ([] ++ Argument.text ⟨"flag", none⟩ :: ([] ++ [])))))) := by
    decide +kernel
  rw [hargs]
  exact .cons (a := ⟨"label", none⟩) rfl (.apart _) <| .cons (a := ⟨"item", some ""⟩) rfl (.joined _) <|
    .cons (a := ⟨"item", none⟩) rfl (.apart _) <| .cons (a := ⟨"upper", none⟩) rfl .bare <|
      .cons (a := ⟨"flag", some "false"⟩) rfl (.word isFlagWord_false) <|
        .cons (a := ⟨"flag", none⟩) rfl .bare .nil

theorem parse_of_writes_spec_sorts : (∀ entry ∈ sortsSchema, '=' ∉ entry.1.toList) ∧
    Conforms sortsSchema sortsSpec ∧ Writes sortsSchema (usesOf sortsSpec) sortsArgs ∧
      parse sortsSchema sortsArgs = .ok sortsSpec := by
  have hnames : ∀ entry ∈ sortsSchema, '=' ∉ entry.1.toList := by decide +kernel
  exact ⟨hnames, sortsSpec_conforms, sortsArgs_write,
    (parse_of_writes_spec hnames sortsSpec_conforms).2 _ sortsArgs_write⟩

end Foreach.Options

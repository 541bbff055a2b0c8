import Foreach.Options.Arguments
import Foreach.Proofs.Text.Cut

/-!
What arguments say.

Arguments use options one after the other. A use takes one argument, or two if the value of a text option
stands apart from its name, and in no other way can the same arguments be read. Whether arguments can be read
does not depend on the spec that they add to, and where they cannot, the usage is wrong.
-/

namespace Foreach.Options

variable {schema : OptionSchema} {spec : Mapping} {name raw token : String} {b : Bool} {a : Argument}
  {kind : OptionKind} {o : OptionSpec} {v : Value} {behind args rest : List String}

/-! ### One argument -/

/-- An argument as it is written. -/
def Argument.text (a : Argument) : String := "--" ++ a.name ++ a.inline?.elim "" ("=" ++ ·)

theorem Argument.read?_bare (hname : '=' ∉ name.toList) : read? ("--" ++ name) = some ⟨name, none⟩ := by
  have hall : ∀ c ∈ name.toList, (c != '=') = true := fun c hc => bne_iff_ne.2 (ne_of_mem_of_not_mem hc hname)
  simp [read?, List.takeWhile_eq_self_iff.2 hall, List.dropWhile_eq_nil_iff.2 hall]

theorem Argument.read?_joined (hname : '=' ∉ name.toList) (value : String) :
    read? ("--" ++ name ++ ("=" ++ value)) = some ⟨name, some value⟩ := by
  simp [read?, Text.takeWhile_ne_append hname, Text.dropWhile_ne_append hname]

theorem Argument.read?_text (hname : '=' ∉ a.name.toList) : read? a.text = some a := by
  obtain ⟨name, _ | value⟩ := a
  · simpa [text] using read?_bare hname
  · exact read?_joined hname value

theorem Argument.read?_eq_some_iff : read? token = some a ↔ '=' ∉ a.name.toList ∧ token = a.text := by
  constructor
  · intro h
    have hdashes : ∃ cs, token = "--" ++ String.ofList cs := by
      unfold read? at h
      split at h
      next cs htoken => exact ⟨cs, String.toList_inj.1 (by simp [htoken])⟩
      next => cases h
    obtain ⟨cs, rfl⟩ := hdashes
    -- the name ends at the first equals sign, or with the argument
    by_cases hequals : '=' ∈ cs
    · obtain ⟨before, after, rfl, hbefore⟩ := List.eq_append_cons_of_mem hequals
      have htoken : "--" ++ String.ofList (before ++ '=' :: after) =
          "--" ++ String.ofList before ++ ("=" ++ String.ofList after) := String.toList_inj.1 (by simp)
      have hname : '=' ∉ (String.ofList before).toList := by rwa [String.toList_ofList]
      rw [htoken, read?_joined hname] at h
      obtain rfl := Option.some.inj h
      exact ⟨hname, htoken⟩
    · have hname : '=' ∉ (String.ofList cs).toList := by rwa [String.toList_ofList]
      rw [read?_bare hname] at h
      obtain rfl := Option.some.inj h
      exact ⟨hname, by simp [text]⟩
  · rintro ⟨hname, rfl⟩
    exact read?_text hname

/-- The words for a truth value. -/
def flagWords : Bool → List String
  | true => ["1", "true", "yes", "on"]
  | false => ["0", "false", "no", "off"]

/-- One of the words for a truth value, in any case and between any blanks. -/
def IsFlagWord (raw : String) (b : Bool) : Prop := Check.lowered (Text.stripText raw) ∈ flagWords b

instance : Decidable (IsFlagWord raw b) := inferInstanceAs (Decidable (_ ∈ _))

theorem isFlagWord_true : IsFlagWord "true" true := by decide

theorem isFlagWord_false : IsFlagWord "false" false := by decide

theorem readFlag_of_isFlagWord (h : IsFlagWord raw b) (name : String) : readFlag name raw = .ok b := by
  have hdisjoint : ∀ word ∈ flagWords false, word ∉ flagWords true := by decide
  unfold readFlag
  cases b with
  | true => exact if_pos (List.contains_iff_mem.2 h)
  | false => exact (if_neg (mt List.contains_iff_mem.1 (hdisjoint _ h))).trans (if_pos (List.contains_iff_mem.2 h))

theorem IsFlagWord.unique {c : Bool} (h : IsFlagWord raw b) (h' : IsFlagWord raw c) : b = c :=
  Except.ok.inj ((readFlag_of_isFlagWord h "").symm.trans (readFlag_of_isFlagWord h' ""))

theorem readFlag_cases (name raw : String) :
    (∃ b, IsFlagWord raw b) ∨ ∃ m, readFlag name raw = .error (.usage m) := by
  unfold readFlag
  dsimp only
  split
  next htrue => exact .inl ⟨true, List.contains_iff_mem.1 htrue⟩
  next =>
    split
    next hfalse => exact .inl ⟨false, List.contains_iff_mem.1 hfalse⟩
    next => exact .inr ⟨_, rfl⟩

/-! ### One use -/

/-- One use of an option. -/
structure Use where
  name : String
  value : Value

/-- What an argument says of an option of a kind, from what is joined to its name and what comes behind it. -/
inductive Says : OptionKind → Option String → List String → Value → Prop
  | joined (s : String) : Says .text (some s) [] (.text s)
  | apart (s : String) : Says .text none [s] (.text s)
  | bare : Says .flag none [] (.bool true)
  | word {raw : String} {b : Bool} (h : IsFlagWord raw b) : Says .flag (some raw) [] (.bool b)

/-- An option takes its value, whatever that looks like, and the rest is read as if it began there. -/
theorem parseFrom_of_said (hname : '=' ∉ a.name.toList) (hdeclared : schema.lookup a.name = some o)
    (hsaid : Says o.kind a.inline? behind v) (spec : Mapping) (rest : List String) :
    parseFrom schema spec (a.text :: (behind ++ rest)) = parseFrom schema (put spec a.name o v) rest := by
  rw [parseFrom, Argument.read?_text hname]
  dsimp only
  rw [hdeclared]
  dsimp only
  generalize hkind : o.kind = kind at hsaid
  generalize hjoined : a.inline? = inline? at hsaid
  cases hsaid with
  | joined s => rfl
  | apart s => rfl
  | bare => rfl
  | word h => simp only [readFlag_of_isFlagWord h, List.nil_append]

theorem Says.unique {inline? : Option String} {behind' args' : List String} {w : Value} (h : Says kind inline? behind v)
    (h' : Says kind inline? behind' w) (hargs : behind ++ args = behind' ++ args') : v = w ∧ args = args' := by
  cases h with
  | joined s =>
    cases h'
    exact ⟨rfl, hargs⟩
  | apart s =>
    cases h' with
    | apart t =>
      obtain ⟨rfl, rfl⟩ := List.cons.inj hargs
      exact ⟨rfl, rfl⟩
  | bare =>
    cases h'
    exact ⟨rfl, hargs⟩
  | word h =>
    cases h' with
    | word h' => exact ⟨by rw [h.unique h'], hargs⟩

/-- What can become of arguments at their first one: there is none, or it uses an option, or it is wrong
whatever spec it is to add to. -/
theorem first_cases (schema : OptionSchema) (args : List String) : args = [] ∨
    (∃ (a : Argument) (o : OptionSpec) (v : Value) (behind rest : List String), '=' ∉ a.name.toList ∧
      schema.lookup a.name = some o ∧ Says o.kind a.inline? behind v ∧ args = a.text :: (behind ++ rest)) ∨
    ∃ m, ∀ spec, parseFrom schema spec args = .error (.usage m) := by
  cases args with
  | nil => exact .inl rfl
  | cons token rest =>
    refine .inr ?_
    cases hread : Argument.read? token with
    | none => exact .inr ⟨_, fun spec => by rw [parseFrom, hread]⟩
    | some a =>
      obtain ⟨hname, rfl⟩ := Argument.read?_eq_some_iff.1 hread
      cases hdeclared : schema.lookup a.name with
      | none => exact .inr ⟨_, fun spec => by rw [parseFrom, hread]; simp only [hdeclared]; rfl⟩
      | some o =>
        obtain ⟨name, inline?⟩ := a
        obtain ⟨kind, multiple, description⟩ := o
        cases kind with
        | flag =>
          cases inline? with
          | none => exact .inl ⟨_, _, _, [], rest, hname, hdeclared, .bare, rfl⟩
          | some raw =>
            obtain ⟨b, hb⟩ | ⟨m, hm⟩ := readFlag_cases name raw
            · exact .inl ⟨_, _, _, [], rest, hname, hdeclared, .word hb, rfl⟩
            · exact .inr ⟨m, fun spec => by rw [parseFrom, hread]; simp only [hdeclared, hm]⟩
        | text =>
          cases inline? with
          | some s => exact .inl ⟨_, _, _, [], rest, hname, hdeclared, .joined s, rfl⟩
          | none =>
            cases rest with
            | nil => exact .inr ⟨_, fun spec => by rw [parseFrom, hread]; simp only [hdeclared]; rfl⟩
            | cons s rest => exact .inl ⟨_, _, _, [s], rest, hname, hdeclared, .apart s, rfl⟩

/-! ### All arguments -/

/-- The arguments write these uses of declared options, one after the other. -/
inductive Writes (schema : OptionSchema) : List Use → List String → Prop
  | nil : Writes schema [] []
  | cons {a : Argument} {o : OptionSpec} {v : Value} {behind : List String} {uses : List Use} {args : List String}
      (hdeclared : schema.lookup a.name = some o) (hsaid : Says o.kind a.inline? behind v)
      (hrest : Writes schema uses args) : Writes schema (⟨a.name, v⟩ :: uses) (a.text :: (behind ++ args))

/-- No name has an equals sign in it. -/
def Legible (uses : List Use) : Prop := ∀ use ∈ uses, '=' ∉ use.name.toList

variable {uses others : List Use}

theorem legible_nil : Legible [] := List.forall_mem_nil _

theorem legible_cons {use : Use} : Legible (use :: uses) ↔ '=' ∉ use.name.toList ∧ Legible uses :=
  List.forall_mem_cons

/-- There is one way to read arguments. -/
theorem Writes.unique (h : Writes schema uses args) (hlegible : Legible uses) (h' : Writes schema others args)
    (hlegible' : Legible others) : uses = others := by
  induction h generalizing others with
  | nil =>
    cases h'
    rfl
  | @cons a o v behind uses args hdeclared hsaid _ ih =>
    obtain ⟨hname, hrest⟩ := legible_cons.1 hlegible
    generalize hargs : a.text :: (behind ++ args) = all at h'
    cases h' with
    | nil => cases hargs
    | @cons a' o' w behind' others args' hdeclared' hsaid' hwrites' =>
      obtain ⟨hname', hrest'⟩ := legible_cons.1 hlegible'
      obtain ⟨htext, htail⟩ := List.cons.inj hargs
      -- the text of an argument tells its name, and with it the option, and what is joined to it
      have hread : some a = some a' := by rw [← Argument.read?_text hname, htext, Argument.read?_text hname']
      obtain rfl := Option.some.inj hread
      obtain rfl := Option.some.inj (hdeclared.symm.trans hdeclared')
      obtain ⟨rfl, rfl⟩ := hsaid.unique hsaid' htail
      rw [ih hrest hwrites' hrest']

/-- Arguments that write no uses are refused, whatever spec they are to add to. -/
theorem written_or_refused (schema : OptionSchema) (args : List String) :
    (∃ uses, Legible uses ∧ Writes schema uses args) ∨
      ∃ m, ∀ spec, parseFrom schema spec args = .error (.usage m) := by
  -- a use takes one argument or two, so the induction is on how many there are
  induction hlength : args.length using Nat.strongRecOn generalizing args with
  | ind n ih =>
    obtain rfl | ⟨a, o, v, behind, rest, hname, hdeclared, hsaid, rfl⟩ | hrefused := first_cases schema args
    · exact .inl ⟨[], legible_nil, .nil⟩
    · have hshorter : rest.length < n := by
        rw [← hlength, List.length_cons, List.length_append]
        omega
      obtain ⟨uses, hlegible, hwrites⟩ | ⟨m, hm⟩ := ih _ hshorter rest rfl
      · exact .inl ⟨⟨a.name, v⟩ :: uses, legible_cons.2 ⟨hname, hlegible⟩, .cons hdeclared hsaid hwrites⟩
      · exact .inr ⟨m, fun spec => by rw [parseFrom_of_said hname hdeclared hsaid, hm]⟩
    · exact .inr hrefused

end Foreach.Options

import Foreach.Proofs.Cli.Session
import Foreach.Proofs.Definition.Kept
import Foreach.Proofs.Definition.Key
import Foreach.Proofs.Request

/-!
What a definition is found by.

A definition is made under a name as it is given. To show it or to take it out, the signs in front of the
name are left off first, and a request for it names it up to the first space. So the commands agree on the
names without a sign in front and without a space: such a definition is shown, taken out and run under the
name that it was made under. Under a name with a sign in front it is neither shown nor taken out, whatever
name is given, and under one with a space no request runs it.
-/

namespace Foreach

namespace Cli

variable {σ α : Type} [BEq α] {h : Host σ α} {s : Settings} {w : World} {name : String} {found : Definition}
  {store : Store}

/-! ### Names as they are given -/

theorem bareName_of_head? (hname : name.toList.head? ≠ some '@') : bareName name = name := by
  unfold bareName
  cases hcs : name.toList with
  | nil => rw [← hcs, List.dropWhile_eq_self_iff.2 (by simp [hcs]), String.ofList_toList]
  | cons c cs =>
    have hc : c ≠ '@' := by simpa [hcs] using hname
    rw [List.dropWhile_cons_of_neg (by simpa using hc), ← hcs, String.ofList_toList]

theorem head?_bareName (given : String) : (bareName given).toList.head? ≠ some '@' := by
  rw [bareName, String.toList_ofList]
  intro hsign
  have hnot := List.head?_dropWhile_not (fun c : Char => decide (c = '@')) given.toList
  rw [hsign] at hnot
  simp at hnot

/-- A name with a sign in front is none that is left when the signs are off. -/
theorem bareName_ne (hname : name.toList.head? = some '@') (given : String) : bareName given ≠ name :=
  fun heq => head?_bareName given (heq ▸ hname)

theorem Forms.step_word (fs : Forms) (a : Arguments) {word : String} (hword : word.toList.head? ≠ some '-') :
    fs.step a word = some (.done (a.say [word])) := by
  unfold step
  split
  next heq => simp [heq] at hword
  next heq => simp [heq] at hword
  next => rfl

/-- A single word that does not look like an option. -/
theorem Forms.parse_word (fs : Forms) {word : String} (hword : word.toList.head? ≠ some '-') :
    fs.parse [word] = some ⟨[], [word]⟩ := by
  have hdashes : word ≠ "--" := by
    rintro rfl
    exact hword rfl
  rw [parse, parseFrom, if_neg hdashes, fs.step_word _ hword]
  rfl

theorem argumentsOf_word (forms : Forms) {word : String} (hword : word.toList.head? ≠ some '-') :
    Command.argumentsOf forms [word] = some ⟨[], [word]⟩ := by
  rw [Command.argumentsOf, forms.parse_word hword]
  rfl

theorem ofArguments_show (hname : name.toList.head? ≠ some '-') :
    Command.ofArguments .iterable ["show", name] = some (.inspect name) := by
  change (Command.argumentsOf Command.plainForms [name]).bind (Command.ofWord .inspect) = _
  rw [argumentsOf_word _ hname]
  rfl

theorem ofArguments_delete (hname : name.toList.head? ≠ some '-') :
    Command.ofArguments .iterable ["delete", name] = some (.delete name) := by
  change (Command.argumentsOf Command.plainForms [name]).bind (Command.ofWord .delete) = _
  rw [argumentsOf_word _ hname]
  rfl

theorem ofArguments_foreach {input : String} (hinput : input.toList.head? ≠ some '-') :
    Command.ofArguments .foreach [input] = some (.foreach [input] none none true) := by
  rw [Command.ofArguments, argumentsOf_word _ hinput]
  rfl

/-! ### What a command finds -/

theorem desk_of_loads (hloads : h.Loads s) {files locked : Files} {more : List Notice}
    (hlock : (h.archive s).lock files = .ok locked) (hcontents : (h.archive s).contents files = .ok (store, more)) :
    ∃ notices, h.desk s files = (.ok ⟨h.providers s, store, h.archive s⟩, notices, locked) := by
  obtain ⟨registry, types, hload⟩ := hloads
  unfold Host.desk Host.providers
  rcases hresult : h.catalogue.load .empty h.installed s.entrypoints with ⟨result, notices⟩
  rw [hresult] at hload
  obtain rfl : result = .ok (registry, types) := hload
  exact ⟨notices ++ more, by simp only [Archive.load_of_contents hlock hcontents .empty]⟩

/-- A definition stands under a name in an archive that was saved and can be locked. -/
structure Stands (h : Host σ α) (s : Settings) (w : World) (name : String) (store : Store) (found : Definition) :
    Prop where
  kept : (h.archive s).Kept w.files
  lockable : (h.archive s).Lockable w.files
  contents : ∃ notices, (h.archive s).contents w.files = .ok (store, notices)
  found : store.get? (.text name) = some found

omit [BEq α] in
theorem Stands.settled (hstands : Stands h s w name store found) : store.Settled := by
  obtain ⟨notices, hcontents⟩ := hstands.contents
  obtain ⟨loaded, hloaded⟩ := hstands.kept.holds
  cases hloaded.contents.symm.trans hcontents
  exact hloaded.settled

omit [BEq α] in
theorem Stands.mem (hstands : Stands h s w name store found) : found ∈ store.list ∧ found.name = name :=
  hstands.settled.toNamed.get?_eq_some_iff.1 hstands.found

/-- What a command gets that is run there. -/
theorem Stands.desk (hstands : Stands h s w name store found) (hloads : h.Loads s) :
    ∃ notices locked, h.desk s w.files = (.ok ⟨h.providers s, store, h.archive s⟩, notices, locked) ∧
      (h.archive s).lock w.files = .ok locked := by
  obtain ⟨more, hcontents⟩ := hstands.contents
  obtain ⟨locked, hlock⟩ := hstands.lockable
  obtain ⟨notices, hdesk⟩ := desk_of_loads hloads hlock hcontents
  exact ⟨notices, locked, hdesk, hlock⟩

/-! ### Showing -/

/-- The lines that show a definition. -/
def shownLines (d : Definition) (spec : String) : List String :=
  headLines d ++ [s!"Spec: {spec}", s!"Created: {d.created.display}", s!"Updated: {d.updated.display}"]

theorem inspect_of_found {d : Desk σ} {spec : String} (hname : name.toList.head? ≠ some '@')
    (hfound : d.store.get? (.text name) = some found) (hspec : Json.indented? (.map found.spec) = some spec) :
    inspect name d w = (.tells (shownLines found spec), w) := by
  simp only [inspect, bareName_of_head? hname, hfound, hspec, shownLines]

theorem whole_headLines {d : Definition} (hd : d.Encodable) : ∀ line ∈ headLines d, Text.Whole line.toList := by
  have hname : Text.Whole s!"Iterable: @{d.name}".toList :=
    Text.whole_toList_append.2 ⟨by decide, hd.whole.1⟩
  have htype : Text.Whole s!"Type: {d.type}".toList := Text.whole_toList_append.2 ⟨by decide, hd.whole.2⟩
  refine List.forall_mem_cons.2 ⟨hname, List.forall_mem_cons.2 ⟨htype, ?_⟩⟩
  cases hdescription : d.description with
  | none => exact List.forall_mem_nil _
  | some text =>
    dsimp only
    split
    next => exact List.forall_mem_nil _
    next =>
      have htext := hd.whole_description hdescription
      exact List.forall_mem_singleton.2 (Text.whole_toList_append.2 ⟨by decide, htext⟩)

theorem whole_shownLines {d : Definition} {spec : String} (hd : d.Encodable) (hspec : Text.Whole spec.toList) :
    ∀ line ∈ shownLines d spec, Text.Whole line.toList := by
  refine List.forall_mem_append.2 ⟨whole_headLines hd, ?_⟩
  simp only [List.forall_mem_cons, Text.whole_toList_append]
  exact ⟨⟨by decide, hspec⟩, ⟨by decide, d.created.whole_display⟩, ⟨by decide, d.updated.whole_display⟩,
    List.forall_mem_nil _⟩

/-- A definition is shown under a name, in a process that succeeds and leaves the archive alone. -/
structure Shows (h : Host σ α) (s : Settings) (w : World) (name : String) (found : Definition) : Prop where
  asked : Command.ofArguments .iterable ["show", name] = some (.inspect name)
  told : ∃ spec notices, Json.indented? (.map found.spec) = some spec ∧
    ((Command.inspect name).run h s w trivial).1 = { Reply.tells (shownLines found spec) with notices }
  done : ((Command.inspect name).run h s w trivial).1.printed.ending = .done
  untouched : (h.archive s).Untouched w.files ((Command.inspect name).run h s w trivial).2.files

theorem Stands.shows (hstands : Stands h s w name store found) (hloads : h.Loads s)
    (hdash : name.toList.head? ≠ some '-') (hsign : name.toList.head? ≠ some '@') : Shows h s w name found := by
  obtain ⟨more, hcontents⟩ := hstands.contents
  obtain ⟨notices, locked, hdesk, hlock⟩ := hstands.desk hloads
  have hmem := hstands.mem.1
  -- The spec is shown as it was read, so it is not enough that the definition is encodable.
  obtain ⟨cs, hprint, hwhole⟩ := (hstands.kept.encodable_spec hcontents hmem).printsWhole .indented 0
  have hspec : Json.indented? (.map found.spec) = some (String.ofList cs) :=
    Option.map_eq_some_iff.2 ⟨cs, hprint, rfl⟩
  have hrun : (Command.inspect name).run h s w trivial =
      ({ Reply.tells (shownLines found (String.ofList cs)) with notices }, { w with files := locked }) := by
    simp only [Command.run, withDesk, hdesk]
    rw [inspect_of_found hsign hstands.found hspec]
    simp only [Reply.tells, List.append_nil]
  have hlines : ∀ line ∈ shownLines found (String.ofList cs), Text.Whole line.toList :=
    whole_shownLines (hstands.settled.encodable_of_mem hmem) (by rwa [String.toList_ofList])
  refine ⟨ofArguments_show hdash, ⟨_, notices, hspec, by rw [hrun]⟩, ?_, ?_⟩
  · rw [hrun]
    exact ending_printed_tells hlines notices
  · rw [hrun]
    exact Archive.untouched_lock hlock

/-! ### Taking out -/

/-- The definition under a name is taken out, and all the others are kept. -/
structure Deletes (h : Host σ α) (s : Settings) (w : World) (name : String) (store : Store) : Prop where
  asked : Command.ofArguments .iterable ["delete", name] = some (.delete name)
  done : ((Edit.delete name).run h s w).1.ending = .done
  others : ∃ rest, (h.archive s).Holds ((Edit.delete name).run h s w).2.files rest ∧
    rest.Mirrors (store.delete (.text name)).1

theorem Stands.deletes (hstands : Stands h s w name store found) (hloads : h.Loads s)
    (hdash : name.toList.head? ≠ some '-') (hsign : name.toList.head? ≠ some '@') :
    Deletes h s w name store := by
  obtain ⟨more, hcontents⟩ := hstands.contents
  obtain ⟨notices, locked, hdesk, hlock⟩ := hstands.desk hloads
  obtain ⟨hmem, -⟩ := hstands.mem
  have hrest := hstands.settled.delete (.text name)
  have hthere : (store.delete (.text name)).2 = true := by
    rw [Store.delete, Store.contains_eq_isSome, hstands.found]
    rfl
  obtain ⟨bytes, hfile⟩ := Archive.file_of_contents hcontents hmem
  -- The lock that the store was loaded behind is taken again for the save.
  obtain ⟨again, hagain⟩ := Archive.lockable_lock hlock
  obtain ⟨after, hsave⟩ := Archive.save_of_settled hrest hagain ((Archive.lock_place hlock).trans hfile)
  obtain ⟨rest, hholds, hmirrors, -⟩ := Archive.holds_save hrest.toNamed hsave
  have hrun : (Edit.delete name).command h s w =
      ({ Reply.tells [s!"Deleted iterable: @{name}"] with notices }, { w with files := after }) := by
    simp only [Edit.command, Command.run, withDesk, hdesk, Cli.delete, bareName_of_head? hsign, hthere, keep,
      hsave, if_true]
    simp only [Reply.tells, List.append_nil]
  have hline : Text.Whole s!"Deleted iterable: @{name}".toList :=
    Text.whole_toList_append.2 ⟨by decide, hstands.settled.whole_of_contains hthere⟩
  refine ⟨ofArguments_delete hdash, ?_, rest, ?_, hmirrors⟩
  · rw [Edit.run, hrun]
    exact ending_printed_tells (List.forall_mem_singleton.2 hline) notices
  · rw [Edit.run, hrun]
    exact hholds

/-! ### Running -/

/-- A request for a name runs the items of the definition that stands there, as soon as the ledger of the
run can be opened, and the command comes to an end if the run does. -/
structure Runs (h : Host σ α) (s : Settings) (w : World) (name template : String) (store : Store)
    (found : Definition) : Prop where
  asked : Command.ofArguments .foreach [Request.input name template] =
    some (.foreach [Request.input name template] none none true)
  runs : ∃ locked, (h.archive s).lock w.files = .ok locked ∧
    ∀ action runId ledger ledger? files, openLedger h s runId ledger locked = .ok (ledger?, files) →
      ∀ ends : (job h (actionOf h s action) ⟨name, template⟩).Ends ⟨h.providers s, store⟩
          ⟨.empty, h.idle, files, ledger?⟩,
        ∃ ends' : (Command.foreach [Request.input name template] action runId ledger).Ends h s w, ∃ o notices,
          o = Batch.execute (job h (actionOf h s action) ⟨name, template⟩) ⟨h.providers s, store⟩
            ⟨.empty, h.idle, files, ledger?⟩ ends ∧
          (Command.foreach [Request.input name template] action runId ledger).run h s w ends' =
            (⟨endingOf o.result, o.trace.filterMap Batch.Event.line?, notices⟩,
              { w with files := o.runner.files })
  items : ∀ provider, (h.providers s).get? found.type = some provider →
    Service.generate ⟨h.providers s, store⟩ (.text name) = provider.generate found.spec

theorem Stands.runs (hstands : Stands h s w name store found) (hloads : h.Loads s) (hname : name ≠ "")
    (hspace : ' ' ∉ name.toList) {template : String} (htemplate : Request.IsPlain template) :
    Runs h s w name template store found := by
  obtain ⟨notices, locked, hdesk, hlock⟩ := hstands.desk hloads
  have hparse : Request.parse (" ".intercalate [Request.input name template]) = .ok ⟨name, template⟩ :=
    Request.parse_input hname hspace htemplate
  refine ⟨ofArguments_foreach ?_, ⟨locked, hlock, fun action runId ledger ledger? files hledger ends => ?_⟩,
    fun provider hprovider => Service.generate_of_provider hstands.found hprovider⟩
  · rw [Request.toList_input]
    simp
  · have hopen : openRun h s w runId ledger =
        .ok ⟨⟨h.providers s, store, h.archive s⟩, notices, .empty, h.idle, files, ledger?⟩ := by
      simp only [openRun, hdesk, hledger]
    have hends : RunEnds h s w [Request.input name template] action runId ledger := by
      intro o ho r hr
      cases hopen.symm.trans ho
      cases hparse.symm.trans hr
      exact ends
    refine ⟨hends, _, notices, rfl, ?_⟩
    simp only [Command.run]
    rw [foreach_of_open hends hopen, Batch.run_of_request (hends _ hopen) hparse]
    rfl

/-! ### Defining -/

/-- A name that a definition was made under does not look like an option. -/
theorem Edit.head?_of_define {type description : Option String} {extra : List String}
    (hdone : ((Edit.define name type description extra).run h s w).1.ending.status = 0) :
    name.toList.head? ≠ some '-' := by
  have hended := status_printed hdone
  rw [command_eq] at hended
  split at hended
  next hproper =>
    intro hdash
    simp [isProper, Cli.isProper, hdash] at hproper
  next => cases hended

/-- What a definition that is made by a command stands for: what its arguments say. -/
def Made (h : Host σ α) (s : Settings) (w : World) (name : String) (type description : Option String)
    (extra : List String) (found : Definition) : Prop :=
  ∃ provider spec store more made, (h.providers s).get? (type.getD "") = some provider ∧
    Options.parse provider.options extra = .ok spec ∧ (h.archive s).contents w.files = .ok (store, more) ∧
    Store.Makes ⟨.text name, .text (type.getD ""), .map spec, description.elim .null .text⟩
      (store.get? (.text name)) w.clock.now made ∧ found.Mirrors made

/-- What is made by a command stands under the name that the command was given. -/
theorem Edit.stands_of_define {type description : Option String} {extra : List String}
    (hloads : h.Loads s) (hdone : ((Edit.define name type description extra).run h s w).1.ending.status = 0) :
    ∃ store found, Stands h s ((Edit.define name type description extra).run h s w).2 name store found ∧
      Made h s w name type description extra found := by
  have hended := status_printed hdone
  cases (Edit.define name type description extra).command_closes h s w with
  | refused hstatus => exact absurd hended (hstatus hloads)
  | done hcontents hlock houtcome hreply =>
    cases houtcome with
    | refused hstatus =>
      rw [hreply] at hended
      exact absurd hended hstatus
    | saved hos happly hsave =>
      obtain ⟨provider, spec, hprovider, hspec, rfl⟩ := operations_define_eq_ok hos
      obtain ⟨next, middle, hnext, hnil⟩ := Operation.applyAll_cons_eq_ok happly
      cases hnil
      obtain ⟨made, hdefine⟩ := Operation.apply_define_eq_ok hnext
      obtain ⟨rfl, rfl, hmakes⟩ := Store.enter_of_define rfl hdefine
      -- The next process reads a store that mirrors the saved one, so it has a definition of that name.
      have hnamed := Archive.named_of_contents hcontents
      obtain ⟨kept, hholds, hmirrors, -⟩ := Archive.holds_save (hnamed.enter made) hsave
      have hagree := Mapping.Agree.get? hmirrors (.text made.name)
      have hget : Mapping.get? (Store.enter _ made).entries (.text made.name) = some made :=
        hnamed.get?_enter_self made
      rw [hget] at hagree
      generalize hfound : Mapping.get? kept.entries (.text made.name) = found? at hagree
      cases hagree with
      | some hfoundMirrors =>
        exact ⟨kept, _, ⟨.inr ⟨_, _, _, _, hsave, rfl⟩, Archive.lockable_save hsave, ⟨[], hholds.contents⟩, hfound⟩,
          provider, spec, _, _, made, hprovider, hspec, hcontents, hmakes, hfoundMirrors⟩

/-- What a command makes can be used under its name, but for two kinds of names. In whatever state the archive
was, the definition stands in it after a command that finds its providers and exits with zero. Wherever it
stands, the command that shows it and the one that takes it out find it under the name that it was made under,
unless that begins with a sign, and every request for the name runs it, unless there is a space in the name. A
name that begins with a sign is what the two commands make of no name at all, and one with a space is what no
request names. -/
theorem defined_name_is_used (h : Host σ α) (s : Settings) (hloads : h.Loads s) (w : World) (name : String)
    (type description : Option String) (extra : List String)
    (hdone : ((Edit.define name type description extra).run h s w).1.ending.status = 0) :
    (∃ store found, Stands h s ((Edit.define name type description extra).run h s w).2 name store found ∧
      Made h s w name type description extra found) ∧
    (∀ v store found, Stands h s v name store found →
      (name.toList.head? ≠ some '@' → Shows h s v name found ∧ Deletes h s v name store) ∧
      (name ≠ "" → ' ' ∉ name.toList → ∀ template, Request.IsPlain template →
        Runs h s v name template store found)) ∧
    (name.toList.head? = some '@' → ∀ given, bareName given ≠ name) ∧
    (' ' ∈ name.toList → ∀ text r, Request.parse text = .ok r → r.iterable ≠ name) := by
  obtain ⟨store, found, hstands, hmade⟩ := Edit.stands_of_define hloads hdone
  have hdash := Edit.head?_of_define hdone
  refine ⟨⟨store, found, hstands, hmade⟩, fun v store found hstands => ⟨?_, ?_⟩, bareName_ne, ?_⟩
  · exact fun hsign => ⟨hstands.shows hloads hdash hsign, hstands.deletes hloads hdash hsign⟩
  · exact fun hname hspace template htemplate => hstands.runs hloads hname hspace htemplate
  · rintro hspace text r hparse rfl
    exact Request.space_notMem_of_parse hparse hspace

/-- A definition of numbers is shown, taken out and run under its name. -/
theorem defined_name_is_used_numbers :
    (numbersEdit.run listedHost listedSettings emptyWorld).1.ending.status = 0 ∧
      ∃ after store found, after = (numbersEdit.run listedHost listedSettings emptyWorld).2 ∧
        Shows listedHost listedSettings after "numbers" found ∧
        Deletes listedHost listedSettings after "numbers" store ∧
        Runs listedHost listedSettings after "numbers" "{item}" store found := by
  have hdone : (numbersEdit.run listedHost listedSettings emptyWorld).1.ending.status = 0 := by decide +kernel
  have htemplate : Request.IsPlain "{item}" := by
    refine ⟨by decide, ?_, ?_⟩ <;> rintro c (hc | hc) <;> cases hc <;> decide
  obtain ⟨⟨store, found, hstands, -⟩, hused, -, -⟩ :=
    defined_name_is_used listedHost listedSettings ⟨_, _, rfl⟩ emptyWorld "numbers" (some "list") none
      ["--item", "1"] hdone
  obtain ⟨hfound, hruns⟩ := hused _ store found hstands
  obtain ⟨hshows, hdeletes⟩ := hfound (by decide)
  exact ⟨hdone, _, store, found, rfl, hshows, hdeletes, hruns (by decide) (by decide) "{item}" htemplate⟩

/-- A name with a sign in front, and one with a space. -/
def signedEdit : Edit := .define "@letters" (some "list") none []

def spacedEdit : Edit := .define "two words" (some "list") none []

theorem signed_and_spaced_are_lost :
    (signedEdit.run listedHost listedSettings emptyWorld).1.ending.status = 0 ∧
      ((Command.inspect "@letters").run listedHost listedSettings
        (signedEdit.run listedHost listedSettings emptyWorld).2 trivial).1.ending.status = 1 ∧
      ((Edit.delete "@letters").run listedHost listedSettings
        (signedEdit.run listedHost listedSettings emptyWorld).2).1.ending.status = 1 ∧
      (spacedEdit.run listedHost listedSettings emptyWorld).1.ending.status = 0 ∧
      ∃ ends, ((Command.foreach ["@two words {item}"] none none false).run listedHost listedSettings
        (spacedEdit.run listedHost listedSettings emptyWorld).2 ends).1.ending.status = 1 :=
  ⟨by decide +kernel, by decide +kernel, by decide +kernel, by decide +kernel,
    Command.ends_of_finite Subtype.property _ _ _, by decide +kernel⟩

end Cli
end Foreach

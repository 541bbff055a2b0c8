import Foreach.Cli.Run
import Foreach.Proofs.Definition.Manifest
import Foreach.Proofs.Definition.Operation
import Foreach.Proofs.Options.Parsing

/-!
Commands that change the definitions.

Such a command loads the store, makes its changes in it and saves it: that is all it may do to the
archive. So either it stops before that and leaves the archive alone, or its changes are made in what the
archive held, the result is saved, and the command says so. No half of a character can be in what it says
then, because none can be in what was saved. A load also says which route its document came by: if there is
a half in that, the line cannot be printed, and the command ends in a failure after all.
-/

namespace Foreach.Cli

variable {σ α : Type} [BEq α]

/-! ### What is printed -/

theorem status_printed {r : Reply} (h : r.printed.ending.status = 0) : r.ending.status = 0 := by
  unfold Reply.printed at h
  split at h
  split at h
  next => exact h
  next => cases h

theorem any_isHalf_eq_false_iff {cs : List Char} : cs.any Text.isHalf = false ↔ Text.Whole cs := by
  simp [Text.Whole, List.any_eq_false]

/-- Lines are printed just if no half stands in those for the output stream. -/
theorem printable_iff {lines : List (Bool × String)} : (Reply.printable lines).2 = true ↔
    ∀ line ∈ lines, line.1 = false → Text.Whole line.2.toList := by
  induction lines with
  | nil => simp [Reply.printable]
  | cons line lines ih =>
    obtain ⟨failed, text⟩ := line
    rw [List.forall_mem_cons, ← ih]
    cases failed with
    | true => simp [Reply.printable]
    | false =>
      rw [← Text.whole_unstyled_iff, ← any_isHalf_eq_false_iff]
      cases hhalf : (Text.unstyled text).toList.any Text.isHalf <;> simp [Reply.printable, hhalf]

/-- Such lines leave the end of a command as it is. -/
theorem ending_printed {r : Reply} (h : ∀ line ∈ r.lines, line.1 = false → Text.Whole line.2.toList) :
    r.printed.ending = r.ending := by
  simp [Reply.printed, printable_iff.2 h]

/-- Lines in which no half stands are printed. -/
theorem ending_printed_tells {lines : List String} (h : ∀ line ∈ lines, Text.Whole line.toList)
    (notices : List Notice) : ({ Reply.tells lines with notices := notices } : Reply).printed.ending = .done := by
  refine ending_printed fun line hline _ => ?_
  obtain ⟨text, htext, rfl⟩ := List.mem_map.1 hline
  exact h text htext

/-- A line with a half in it ends a command that was done. -/
theorem status_printed_tells {line : String} (h : ¬Text.Whole line.toList) (notices : List Notice) :
    ({ Reply.tells [line] with notices := notices } : Reply).printed.ending.status = 1 := by
  have hnot : (Reply.printable [(false, line)]).2 = false := by
    rw [Bool.eq_false_iff, Ne, printable_iff]
    exact fun hall => h (hall _ (List.mem_singleton_self _) rfl)
  simp [Reply.printed, Reply.tells, hnot, Ending.status]

/-- The status of a command that a fault stops is that of the fault, if it has one of its own. -/
theorem status_ofFault_eq (f : Fault) : (Ending.ofFault f).status = f.status?.elim 1 UInt8.toNat := by
  unfold Ending.ofFault
  split
  next hreported =>
    rw [Fault.status?_of_isReported hreported]
    rfl
  next => cases f.status? <;> rfl

theorem status_ofFault {f : Fault} (h : f.status? = none) : (Ending.ofFault f).status ≠ 0 := by
  rw [status_ofFault_eq, h]
  exact Nat.one_ne_zero

/-! ### What a command finds -/

/-- The providers that a command finds; none, if they cannot be loaded. -/
def Host.providers (h : Host σ α) (s : Settings) : Registry (Provider σ) :=
  match (h.catalogue.load .empty h.installed s.entrypoints).1 with
  | .ok (registry, _) => registry.map h.provider
  | .error _ => .empty

/-- The providers that the settings name can be loaded. -/
def Host.Loads (h : Host σ α) (s : Settings) : Prop :=
  ∃ registry types, (h.catalogue.load .empty h.installed s.entrypoints).1 = .ok (registry, types)

/-- A command finds its providers and what the archive holds, or it can do nothing. Only a failure of the
providers can have a status of its own. -/
theorem desk_cases (h : Host σ α) (s : Settings) (files : Files) :
    (∃ f notices after, h.desk s files = (.error f, notices, after) ∧ (h.archive s).Untouched files after ∧
      (h.Loads s → f.status? = none)) ∨
      ∃ store more notices locked, h.desk s files = (.ok ⟨h.providers s, store, h.archive s⟩, notices, locked) ∧
        (h.archive s).lock files = .ok locked ∧ (h.archive s).contents files = .ok (store, more) := by
  unfold Host.desk Host.providers Host.Loads
  rcases h.catalogue.load .empty h.installed s.entrypoints with ⟨f | ⟨registry, types⟩, notices⟩
  · refine .inl ⟨f, notices, files, rfl, .refl _ _, ?_⟩
    rintro ⟨registry, types, ⟨⟩⟩
  · cases hlock : (h.archive s).lock files with
    | error f =>
      have hload : (h.archive s).load .empty files = (.error f, .empty, files) := by simp only [Archive.load, hlock]
      refine .inl ⟨f, notices, files, by simp only [hload], .refl _ _, fun _ => ?_⟩
      exact Archive.status?_of_load (congrArg Prod.fst hload)
    | ok locked =>
      cases hcontents : (h.archive s).contents files with
      | error f =>
        have hload := Archive.load_of_error hlock hcontents .empty
        refine .inl ⟨f, notices, locked, by simp only [hload], Archive.untouched_lock hlock, fun _ => ?_⟩
        exact Archive.status?_of_load (congrArg Prod.fst hload)
      | ok found =>
        obtain ⟨store, more⟩ := found
        have hload := Archive.load_of_contents hlock hcontents .empty
        exact .inr ⟨store, more, notices ++ more, locked, by simp only [hload], rfl, rfl⟩

/-- A command whose providers cannot be loaded gets no desk, and has not even asked for the lock. -/
theorem desk_of_unloaded {h : Host σ α} {s : Settings} {f : Fault}
    (hload : (h.catalogue.load .empty h.installed s.entrypoints).1 = .error f) (files : Files) :
    ∃ notices, h.desk s files = (.error f, notices, files) := by
  unfold Host.desk
  rcases hresult : h.catalogue.load .empty h.installed s.entrypoints with ⟨result, notices⟩
  rw [hresult] at hload
  obtain rfl : result = .error f := hload
  exact ⟨notices, rfl⟩

theorem desk_of_not_loads {h : Host σ α} {s : Settings} (hloads : ¬h.Loads s) (files : Files) :
    ∃ f notices, h.desk s files = (.error f, notices, files) := by
  cases hload : (h.catalogue.load .empty h.installed s.entrypoints).1 with
  | error f => exact ⟨f, desk_of_unloaded hload files⟩
  | ok loaded => exact absurd ⟨_, _, hload⟩ hloads

/-! ### Edits -/

/-- A command that changes the definitions. A load is given by the document that its file holds, and by the
route to it, which is only named in the line that says that it was loaded. -/
inductive Edit where
  | define (name : String) (type description : Option String) (extra : List String)
  | delete (name : String)
  | load (document : Value) (route : Route)

/-- No half is in the route that an edit names, if it names one. -/
def Edit.Prints : Edit → Prop
  | .define .. | .delete _ => True
  | .load _ route => Text.Whole route.text.toList

/-- The command of an edit. -/
def Edit.command (h : Host σ α) (s : Settings) (w : World) : Edit → Reply × World
  | .define name type description extra => (Command.define name type description extra).run h s w trivial
  | .delete name => (Command.delete name).run h s w trivial
  | .load document route => withDesk h s w (loadDocument route document)

/-- An edit as a process of its own, with what it prints. -/
def Edit.run (h : Host σ α) (s : Settings) (w : World) (e : Edit) : Reply × World :=
  ((e.command h s w).1.printed, (e.command h s w).2)

/-- A command asks for an edit; one that loads a file does so if the file holds the document. -/
def Edit.IsAskedBy (h : Host σ α) (files : Files) : Edit → Command → Prop
  | .define name type description extra, c => c = .define name type description extra
  | .delete name, c => c = .delete name
  | .load document route, c => c = .load route ∧ ∃ bytes cs,
      files.get? (files.locate route h.directory) = some (.file bytes) ∧
        Utf8.decode bytes = some cs ∧ Yaml.read cs = .ok document

/-- The file that is loaded is read behind the lock, which does not change it. -/
theorem Command.run_load {h : Host σ α} {s : Settings} {w : World} {route : Route} {document : Value}
    {bytes : List UInt8} {cs : List Char}
    (hfile : w.files.get? (w.files.locate route h.directory) = some (.file bytes))
    (hdecode : Utf8.decode bytes = some cs) (hread : Yaml.read cs = .ok document) :
    (Command.load route).run h s w trivial = withDesk h s w (loadDocument route document) := by
  simp only [Command.run]
  rw [if_pos (by simp [Files.isFile, hfile])]
  unfold withDesk
  rcases desk_cases h s w.files with ⟨f, notices, after, hdesk, -⟩ | ⟨store, more, notices, locked, hdesk, hlock, -⟩
  · rw [hdesk]
  · have hlocked := Archive.lock_file hlock hfile
    rw [hdesk]
    simp only [Cli.load, Files.read, hlocked, hdecode, hread]

theorem run_of_understood {h : Host σ α} {args : List String} {w : World} {s : Settings} {c : Command}
    (hunderstood : understand h args w.files = .ok (s, c)) {ends : Ends h args w} :
    Cli.run h args w ends =
      ((c.run h s w (ends s c hunderstood)).1.printed, (c.run h s w (ends s c hunderstood)).2) := by
  unfold Cli.run
  split
  next herror => cases herror.symm.trans hunderstood
  next hok =>
    cases hok.symm.trans hunderstood
    rfl

/-- A command line that asks for an edit runs it. -/
theorem run_of_isAskedBy {h : Host σ α} {s : Settings} {w : World} {e : Edit} {c : Command}
    {args rest : List String} (hgroup : Group.ofArguments args = some (.iterable, rest))
    (hsettings : h.settings w.files = .ok s) (hcommand : Command.ofArguments .iterable rest = some c)
    (hasked : e.IsAskedBy h w.files c) (ends : Ends h args w) : Cli.run h args w ends = e.run h s w := by
  have hunderstood : understand h args w.files = .ok (s, c) := by
    simp only [understand, hgroup, hsettings, hcommand, Option.elim_some]
  rw [run_of_understood hunderstood]
  cases e with
  | define | delete =>
    cases hasked
    rfl
  | load document route =>
    obtain ⟨rfl, bytes, cs, hfile, hdecode, hread⟩ := hasked
    simp only [Edit.run, Edit.command, Command.run_load hfile hdecode hread]

/-- The changes that an edit asks for. -/
def Edit.operations (registry : Registry (Provider σ)) : Edit → Except Fault (List Operation)
  | .define name type description extra =>
    match registry.get? (type.getD "") with
    | none => .error (.unknownType (type.getD ""))
    | some provider =>
      (Options.parse provider.options extra).map fun spec =>
        [.define ⟨.text name, .text (type.getD ""), .map spec, description.elim .null .text⟩]
  | .delete name => .ok [.delete (.text (bareName name))]
  | .load document _ =>
    match Manifest.entries document with
    | .error f => .error f
    | .ok entries => (entries.mapM Manifest.proposal).map (·.map .define)

theorem Edit.operations_define_eq_ok {registry : Registry (Provider σ)} {name : String}
    {type description : Option String} {extra : List String} {os : List Operation}
    (hos : (Edit.define name type description extra).operations registry = .ok os) :
    ∃ provider spec, registry.get? (type.getD "") = some provider ∧
      Options.parse provider.options extra = .ok spec ∧
      os = [.define ⟨.text name, .text (type.getD ""), .map spec, description.elim .null .text⟩] := by
  rw [operations] at hos
  split at hos
  next => cases hos
  next provider hprovider =>
    obtain ⟨spec, hspec, rfl⟩ := map_eq_ok hos
    exact ⟨provider, spec, hprovider, hspec, rfl⟩

theorem Edit.textual_operations {registry : Registry (Provider σ)} {e : Edit} {os : List Operation}
    (h : e.operations registry = .ok os) : ∀ o ∈ os, o.Textual := by
  cases e with
  | define name type description extra =>
    obtain ⟨provider, spec, -, -, rfl⟩ := operations_define_eq_ok h
    exact List.forall_mem_singleton.2 ⟨name, rfl⟩
  | delete name =>
    cases h
    exact List.forall_mem_singleton.2 trivial
  | load document route =>
    rw [operations] at h
    split at h
    next => cases h
    next entries hentries =>
      obtain ⟨ps, hps, rfl⟩ := map_eq_ok h
      exact Manifest.textual_of_proposals hps

/-- What an edit makes of the store at a desk, and the line that says that it was saved. -/
def Edit.change (d : Desk σ) (clock : Clock) : Edit → Except Fault (Store × String) × Clock
  | .define name type description extra =>
    let type := type.getD ""
    match d.registry.get? type with
    | none => (.error (.unknownType type), clock)
    | some provider =>
      match Options.parse provider.options extra with
      | .error f => (.error f, clock)
      | .ok spec =>
        let proposal : Proposal := ⟨.text name, .text type, .map spec, description.elim .null .text⟩
        match d.store.define d.registry.hasKey clock proposal with
        | (.error f, _, clock) => (.error f, clock)
        | (.ok _, store, clock) => (.ok (store, s!"Defined iterable: @{name} ({type})"), clock)
  | .delete name =>
    let name := bareName name
    let (store, there) := d.store.delete (.text name)
    if there then (.ok (store, s!"Deleted iterable: @{name}"), clock) else (.error (.undefined name), clock)
  | .load document route =>
    match Manifest.entries document with
    | .error f => (.error f, clock)
    | .ok entries =>
      match Manifest.defineAll d.registry.hasKey d.store clock entries with
      | (.error f, clock) => (.error f, clock)
      | (.ok store, clock) =>
        (.ok (store, s!"Loaded {entries.length} iterable(s) from {route.text}"), clock)

/-- The change, and then the save. -/
def Edit.work (e : Edit) : Work σ := fun d w =>
  match e.change d w.clock with
  | (.error f, clock) => (.ends (.ofFault f), { w with clock })
  | (.ok (store, line), clock) => keep d store line { w with clock }

/-- Whether an edit can be asked for like this. -/
def Edit.isProper : Edit → Bool
  | .define name type _ _ => Cli.isProper name (type.getD "")
  | .delete _ | .load .. => true

theorem define_eq_work (name : String) (type description : Option String) (extra : List String) :
    Cli.define name (type.getD "") description extra =
      (Edit.define name type description extra).work (σ := σ) := by
  funext d w
  simp only [Cli.define, Edit.work, Edit.change]
  cases d.registry.get? (type.getD "") with
  | none => rfl
  | some provider =>
    simp only
    cases Options.parse provider.options extra with
    | error f => rfl
    | ok spec =>
      simp only
      rcases d.store.define d.registry.hasKey w.clock _ with ⟨f | made, store, clock⟩ <;> rfl

theorem delete_eq_work (name : String) : Cli.delete name = (Edit.delete name).work (σ := σ) := by
  funext d w
  simp only [Cli.delete, Edit.work, Edit.change]
  split <;> rfl

theorem load_eq_work (document : Value) (route : Route) :
    loadDocument route document = (Edit.load document route).work (σ := σ) := by
  funext d w
  simp only [loadDocument, Edit.work, Edit.change]
  cases Manifest.entries document with
  | error f => rfl
  | ok entries =>
    simp only
    rcases Manifest.defineAll d.registry.hasKey d.store w.clock entries with ⟨f | store, clock⟩ <;> rfl

/-- An edit gets its desk and works with it, unless it cannot be asked for. -/
theorem Edit.command_eq (h : Host σ α) (s : Settings) (w : World) (e : Edit) :
    e.command h s w =
      if e.isProper then withDesk h s w e.work else (.ends (.refused Options.defineUsage), w) := by
  cases e with
  | define =>
    simp only [command, Command.run, define_eq_work, isProper]
    rfl
  | delete => simp only [command, Command.run, delete_eq_work, isProper, if_true]
  | load => rw [command, load_eq_work, isProper, if_pos rfl]

/-- A change that is made is that of the operations that the edit asks for. If no half stands in the
definitions before and after, then the line that tells of it can be printed just if the route can be that is
named there. -/
theorem Edit.change_eq_ok {d : Desk σ} {e : Edit} {clock clock' : Clock} {store : Store} {line : String}
    (h : e.change d clock = (.ok (store, line), clock')) :
    ∃ os, e.operations d.registry = .ok os ∧
      Operation.applyAll d.registry.hasKey d.store clock os = .ok store ∧
      (d.store.Settled → store.Settled → (Text.Whole line.toList ↔ e.Prints)) := by
  cases e with
  | define name type description extra =>
    simp only [change] at h
    split at h
    next => cases h
    next provider hprovider =>
      split at h
      next => cases h
      next spec hspec =>
        split at h
        next => cases h
        next made next after hdefine =>
          cases h
          refine ⟨[.define ⟨.text name, .text (type.getD ""), .map spec, description.elim .null .text⟩], ?_, ?_,
            fun _ hstore => iff_of_true ?_ trivial⟩
          · simp only [operations, hprovider, hspec, Except.map]
          · simp only [Operation.applyAll, Operation.apply, hdefine]
          · obtain ⟨hname, htype⟩ := hstore.whole_of_define rfl rfl hdefine
            simp only [Text.whole_toList_append]
            exact ⟨⟨⟨⟨by decide, hname⟩, by decide⟩, htype⟩, by decide⟩
  | delete name =>
    simp only [change] at h
    split at h
    next hthere =>
      cases h
      refine ⟨[.delete (.text (bareName name))], rfl, rfl, fun hstore _ => iff_of_true ?_ trivial⟩
      simp only [Text.whole_toList_append]
      exact ⟨by decide, hstore.whole_of_contains hthere⟩
    next => cases h
  | load document route =>
    simp only [change] at h
    split at h
    next => cases h
    next entries hentries =>
      split at h
      next => cases h
      next next after hdefine =>
        cases h
        obtain ⟨ps, hps, happly⟩ := Manifest.applyAll_of_defineAll hdefine
        refine ⟨ps.map .define, ?_, happly, fun _ _ => ?_⟩
        · simp only [operations, hentries, hps, Except.map]
        · have hcount : Text.Whole s!"Loaded {entries.length} iterable(s) from ".toList := by
            simp only [Text.whole_toList_append]
            exact ⟨⟨by decide, Text.whole_toString _⟩, by decide⟩
          rw [Text.whole_toList_append]
          exact and_iff_right hcount

/-- What keeps a change from being made has no status of its own. -/
theorem Edit.change_eq_error {d : Desk σ} {e : Edit} {clock clock' : Clock} {f : Fault}
    (h : e.change d clock = (.error f, clock')) : f.status? = none := by
  cases e with
  | define name type description extra =>
    simp only [change] at h
    split at h
    next =>
      cases h
      rfl
    next =>
      split at h
      next hparse =>
        cases h
        obtain ⟨m, rfl⟩ := Options.parse_eq_error hparse
        rfl
      next =>
        split at h
        next hdefine =>
          cases h
          exact Store.status?_of_define (congrArg Prod.fst hdefine)
        next => cases h
  | delete name =>
    simp only [change] at h
    split at h
    next => cases h
    next =>
      cases h
      rfl
  | load document route =>
    have hdefine : ∃ after, Manifest.define d.registry.hasKey d.store clock document = (.error f, after) := by
      simp only [change] at h
      unfold Manifest.define
      cases hentries : Manifest.entries document with
      | error g =>
        simp only [hentries] at h
        cases h
        exact ⟨clock, rfl⟩
      | ok entries =>
        simp only [hentries] at h
        rcases hall : Manifest.defineAll d.registry.hasKey d.store clock entries with ⟨g | store, later⟩
        · simp only [hall] at h
          cases h
          exact ⟨clock', hall⟩
        · simp only [hall] at h
          cases h
    obtain ⟨after, hdefine⟩ := hdefine
    exact Manifest.status?_of_define hdefine

/-- How the command of an edit can end: the archive is left alone, or it holds what the changes have made
of the store, and the command says one line. -/
inductive Edit.Outcome (d : Desk σ) (e : Edit) (w : World) (reply : Reply) (after : World) : Prop
  | refused (hstatus : reply.ending.status ≠ 0) (huntouched : d.archive.Untouched w.files after.files)
  | saved {os : List Operation} {store : Store} {line : String} (hos : e.operations d.registry = .ok os)
    (happly : Operation.applyAll d.registry.hasKey d.store w.clock os = .ok store)
    (hsave : d.archive.save store w.files = (.ok (), after.files)) (hreply : reply = .tells [line])
    (hwhole : d.store.Settled → store.Settled → (Text.Whole line.toList ↔ e.Prints))

theorem Edit.outcome_work (e : Edit) (d : Desk σ) (w : World) : e.Outcome d w (e.work d w).1 (e.work d w).2 := by
  unfold work
  split
  next f clock hchange => exact .refused (status_ofFault (change_eq_error hchange)) (.refl _ _)
  next store line clock hchange =>
    obtain ⟨os, hos, happly, hwhole⟩ := change_eq_ok hchange
    unfold keep
    split
    next f files hsave => exact .refused Nat.one_ne_zero (Archive.untouched_save hsave)
    next files hsave => exact .saved hos happly hsave rfl hwhole

end Foreach.Cli

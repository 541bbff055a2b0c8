import Foreach.Proofs.Cli.Edit
import Foreach.Proofs.Runner
import Foreach.Provider.Listed

/-!
Sessions: commands that change the definitions, one after another, each a process of its own.

Beside the commands there is a store in memory that no file is kept for. What each command that saves
does to the definitions is done to it as well, at the same readings of the clock. The archive always
holds a store that mirrors this one: that is so when a session begins, a command that does not save
leaves the archive alone, and one that does saves what its changes have made of a store that mirrored the
one in memory. A command that saves exits with zero, but for a load by a route that cannot be printed.
-/

namespace Foreach.Cli

variable {σ α : Type} [BEq α] {h : Host σ α} {s : Settings} {w : World} {e : Edit}

/-! ### One process -/

/-- How a process can end: it leaves the archive alone, or its edit comes to its outcome with what the
archive held. -/
inductive Edit.Closes (h : Host σ α) (s : Settings) (w : World) (e : Edit) (reply : Reply) (after : World) : Prop
  | refused (hstatus : h.Loads s → reply.ending.status ≠ 0)
    (huntouched : (h.archive s).Untouched w.files after.files)
  | done {store : Store} {more notices : List Notice} {locked : Files} {told : Reply}
    (hcontents : (h.archive s).contents w.files = .ok (store, more))
    (hlock : (h.archive s).lock w.files = .ok locked)
    (houtcome : e.Outcome ⟨h.providers s, store, h.archive s⟩ { w with files := locked } told after)
    (hreply : reply = { told with notices })

theorem Edit.command_closes (h : Host σ α) (s : Settings) (w : World) (e : Edit) :
    e.Closes h s w (e.command h s w).1 (e.command h s w).2 := by
  rw [command_eq]
  split
  next =>
    unfold withDesk
    rcases desk_cases h s w.files with ⟨f, notices, after, hdesk, huntouched, hstatus⟩ |
      ⟨store, more, notices, locked, hdesk, hlock, hcontents⟩
    · rw [hdesk]
      exact .refused (fun hloads => status_ofFault (hstatus hloads)) huntouched
    · rw [hdesk]
      exact .done hcontents hlock (e.outcome_work _ _) rfl
  next => exact .refused (fun _ => Nat.one_ne_zero) (.refl _ _)

/-- The command of an edit gets to the line that says that it is done. -/
def Edit.Saves (h : Host σ α) (s : Settings) (w : World) (e : Edit) : Prop :=
  (e.command h s w).1.ending.status = 0

instance : Decidable (e.Saves h s w) := inferInstanceAs (Decidable (_ = _))

/-- What an edit does to a store in memory. -/
def Edit.perform (registry : Registry (Provider σ)) (e : Edit) (clock : Clock) (store : Store) :
    Except Fault Store :=
  match e.operations registry with
  | .error f => .error f
  | .ok os => Operation.applyAll registry.hasKey store clock os

/-- A process that does not save, and leaves the archive as it was. -/
structure Edit.Passes (h : Host σ α) (s : Settings) (w : World) (e : Edit) : Prop where
  saves : ¬e.Saves h s w
  status : (e.run h s w).1.ending.status ≠ 0
  untouched : (h.archive s).Untouched w.files (e.run h s w).2.files

/-- A process that saves: the archive holds a store that mirrors what the edit makes of the one that it held.
Whether it exits with zero is up to the line that says so. -/
structure Edit.Lands (h : Host σ α) (s : Settings) (w : World) (loaded : Store) (e : Edit) : Prop where
  saves : e.Saves h s w
  status : (e.Prints → (e.run h s w).1.ending.status = 0) ∧ (¬e.Prints → (e.run h s w).1.ending.status = 1)
  lockable : (h.archive s).Lockable (e.run h s w).2.files
  holds : ∃ store kept, e.perform (h.providers s) w.clock loaded = .ok store ∧
    (h.archive s).Holds (e.run h s w).2.files kept ∧ kept.Mirrors store

theorem Edit.Passes.of_status (hstatus : (e.command h s w).1.ending.status ≠ 0)
    (huntouched : (h.archive s).Untouched w.files (e.run h s w).2.files) : e.Passes h s w :=
  ⟨hstatus, fun hprinted => hstatus (status_printed hprinted), huntouched⟩

/-- A process on an archive that holds a settled store saves, or leaves the archive alone. -/
theorem Edit.run_cases (hloads : h.Loads s) {loaded : Store} (hholds : (h.archive s).Holds w.files loaded)
    (e : Edit) : e.Passes h s w ∨ e.Lands h s w loaded := by
  cases e.command_closes h s w with
  | refused hstatus huntouched => exact .inl (.of_status (hstatus hloads) huntouched)
  | done hcontents hlock houtcome hreply =>
    cases hholds.contents.symm.trans hcontents
    cases houtcome with
    | refused hstatus hkept =>
      refine .inl (.of_status ?_ ((Archive.untouched_lock hlock).trans hkept))
      rw [hreply]
      exact hstatus
    | @saved _ _ line hos happly hsave htold hwhole =>
      have hnamed := Operation.named_applyAll hholds.settled.toNamed (Edit.textual_operations hos) happly
      obtain ⟨kept, hkept, hmirrors, hstore⟩ := Archive.holds_save hnamed hsave
      have hprints := hwhole hholds.settled hstore
      refine .inr ⟨?_, ⟨fun h => ?_, fun h => ?_⟩, Archive.lockable_save hsave, _, kept, ?_, hkept, hmirrors⟩
      · rw [Edit.Saves, hreply, htold]
        rfl
      · rw [Edit.run, hreply, htold, ending_printed_tells (List.forall_mem_singleton.2 (hprints.2 h))]
        rfl
      · rw [Edit.run, hreply, htold]
        exact status_printed_tells (fun hline => h (hprints.1 hline)) _
      · rw [perform, hos]
        exact happly

/-! ### Sessions -/

/-- The world after the processes of a session. -/
def runAll (h : Host σ α) (s : Settings) : World → List Edit → World
  | w, [] => w
  | w, e :: es => runAll h s (e.run h s w).2 es

/-- The store in memory after a session. -/
def shadow (h : Host σ α) (s : Settings) : World → Store → List Edit → Except Fault Store
  | _, store, [] => .ok store
  | w, store, e :: es =>
    if e.Saves h s w then
      match e.perform (h.providers s) w.clock store with
      | .error f => .error f
      | .ok store => shadow h s (e.run h s w).2 store es
    else shadow h s (e.run h s w).2 store es

theorem Edit.mirrors_perform {registry : Registry (Provider σ)} {clock : Clock} {store other next : Store}
    (hstore : store.Mirrors other) (hperform : e.perform registry clock store = .ok next) :
    ∃ next', e.perform registry clock other = .ok next' ∧ next.Mirrors next' := by
  unfold perform at *
  split at hperform
  next => cases hperform
  next os _ => exact Operation.mirrors_applyAll hstore hperform

/-- The archive mirrors the store in memory through a whole session. -/
theorem runAll_mirrors (hloads : h.Loads s) {loaded reference : Store} (hholds : (h.archive s).Holds w.files loaded)
    (hmirrors : loaded.Mirrors reference) (es : List Edit) :
    ∃ loaded' reference', (h.archive s).Holds (runAll h s w es).files loaded' ∧
      shadow h s w reference es = .ok reference' ∧ loaded'.Mirrors reference' ∧
      ((h.archive s).Lockable w.files → (h.archive s).Lockable (runAll h s w es).files) := by
  induction es generalizing w loaded reference with
  | nil => exact ⟨loaded, reference, hholds, rfl, hmirrors, fun hlock => hlock⟩
  | cons e es ih =>
    rcases e.run_cases hloads hholds with ⟨hsaves, -, huntouched⟩ |
      ⟨hsaves, -, hlockable, store, kept, hperform, hkept, hkeptMirrors⟩
    · obtain ⟨loaded', reference', hloaded', hshadow, hmirrors', hlock⟩ := ih (huntouched.holds hholds) hmirrors
      refine ⟨loaded', reference', hloaded', ?_, hmirrors', fun h => hlock (huntouched.lockable h)⟩
      rw [shadow, if_neg hsaves]
      exact hshadow
    · obtain ⟨next, hnext, hstore⟩ := Edit.mirrors_perform hmirrors hperform
      obtain ⟨loaded', reference', hloaded', hshadow, hmirrors', hlock⟩ := ih hkept (hkeptMirrors.trans hstore)
      refine ⟨loaded', reference', hloaded', ?_, hmirrors', fun _ => hlock hlockable⟩
      rw [shadow, if_pos hsaves, hnext]
      exact hshadow

/-- A host at the root, with one provider, which lists items. -/
def listedHost : Host Nat (FiniteProvider Nat) where
  directory := []
  environment := []
  catalogue := Catalogue.map Listed.Named.provider
    ⟨[("builtin", .offers [("Listed", .kind
      (Listed.kind "Listed" "Listed" "list" "Items given with --item" fun _ => none))])]⟩
  provider := Subtype.val
  installed := []
  idle := 0
  system := CommandRunner.quiet
  now := .int 0
  freshRun := "run"

def listedSettings : Settings := ⟨"iterables.json", "builtin:Listed", none, 0, "runs", true, .warning⟩

/-- No files, and a clock that stands still. -/
def emptyWorld : World := ⟨.empty, ⟨fun _ => .epoch, 0⟩⟩

def numbersEdit : Edit := .define "numbers" (some "list") none ["--item", "1"]

/-- A load whose second entry has a type that no provider is registered for. -/
def brokenLoad : Edit :=
  .load (.list [.record [("name", .text "letters"), ("type", .text "list")],
    .record [("name", .text "lines"), ("type", .text "file")]]) (.ofText "definitions.yaml")

/-- Commands on an archive refine a store in memory. Whatever edits are run with the providers that there
are, one process each, on an archive that is not there yet or was saved: what a new process loads from it has
the same document as the store in memory, if the lock can be had at all. One more edit exits with zero just if
it saves and no half is in the route that it names; one that saves and cannot print its route exits with one;
and one that does not save leaves every byte of the archive as it is, wherever in its changes it fails. -/
theorem session_refines_store (h : Host σ α) (s : Settings) (hloads : h.Loads s) (w : World)
    (hkept : (h.archive s).Kept w.files) (es : List Edit) :
    ∃ initial loaded reference document,
      (h.archive s).contents w.files = .ok (initial, []) ∧
      (h.archive s).contents (runAll h s w es).files = .ok (loaded, []) ∧
      ((h.archive s).Lockable w.files →
        ∃ locked, (h.archive s).load .empty (runAll h s w es).files = (.ok (loaded.size, []), loaded, locked)) ∧
      shadow h s w initial es = .ok reference ∧
      loaded.serialize = .ok document ∧ reference.serialize = .ok document ∧
      ∀ e : Edit, ((e.run h s (runAll h s w es)).1.ending.status = 0 ↔ e.Saves h s (runAll h s w es) ∧ e.Prints) ∧
        (e.Saves h s (runAll h s w es) → ¬e.Prints → (e.run h s (runAll h s w es)).1.ending.status = 1) ∧
        (¬e.Saves h s (runAll h s w es) →
          (e.run h s (runAll h s w es)).2.files.get? (h.archive s).place =
            (runAll h s w es).files.get? (h.archive s).place) := by
  obtain ⟨initial, hinitial⟩ := hkept.holds
  obtain ⟨loaded, reference, hloaded, hshadow, hmirrors, hlock⟩ :=
    runAll_mirrors hloads hinitial (.refl initial) es
  obtain ⟨document, hdocument⟩ := hloaded.settled.serialize
  refine ⟨initial, loaded, reference, document, hinitial.contents, hloaded.contents, fun hlockable => ?_, hshadow,
    hdocument, hmirrors.serialize.symm.trans hdocument, fun e => ?_⟩
  · obtain ⟨locked, hlocked⟩ := hlock hlockable
    exact ⟨locked, Archive.load_of_contents hlocked hloaded.contents .empty⟩
  · rcases e.run_cases hloads hloaded with hpasses | hlands
    · exact ⟨iff_of_false hpasses.status fun hsaved => hpasses.saves hsaved.1,
        fun hsaves => absurd hsaves hpasses.saves, fun _ => hpasses.untouched.place⟩
    · refine ⟨⟨fun hzero => ⟨hlands.saves, ?_⟩, fun hsaved => hlands.status.1 hsaved.2⟩,
        fun _ => hlands.status.2, fun hnot => absurd hlands.saves hnot⟩
      by_contra hnot
      rw [hlands.status.2 hnot] at hzero
      exact Nat.one_ne_zero hzero

/-- A definition is made in an archive that is not there yet, and a load fails at its second entry. -/
theorem session_refines_store_numbers :
    (listedHost.archive listedSettings).Kept emptyWorld.files ∧
      (numbersEdit.run listedHost listedSettings emptyWorld).1.ending.status = 0 ∧
      ∃ after, after = runAll listedHost listedSettings emptyWorld [numbersEdit] ∧
        (brokenLoad.run listedHost listedSettings after).1.ending.status = 1 ∧
        (brokenLoad.run listedHost listedSettings after).2.files.get? ["iterables.json"] =
          after.files.get? ["iterables.json"] ∧
        ∃ loaded reference document,
          (listedHost.archive listedSettings).contents after.files = .ok (loaded, []) ∧
          shadow listedHost listedSettings emptyWorld .empty [numbersEdit] = .ok reference ∧
          loaded.serialize = .ok document ∧ reference.serialize = .ok document := by
  have hkept : (listedHost.archive listedSettings).Kept emptyWorld.files := .inl rfl
  have hdone : (numbersEdit.run listedHost listedSettings emptyWorld).1.ending.status = 0 := by decide +kernel
  have hfails : (brokenLoad.run listedHost listedSettings
      (runAll listedHost listedSettings emptyWorld [numbersEdit])).1.ending.status = 1 := by decide +kernel
  have hsaves : ¬brokenLoad.Saves listedHost listedSettings
      (runAll listedHost listedSettings emptyWorld [numbersEdit]) := by decide +kernel
  obtain ⟨initial, loaded, reference, document, hinitial, hloaded, -, hshadow, hdocument, hreference, hmore⟩ :=
    session_refines_store listedHost listedSettings ⟨_, _, rfl⟩ emptyWorld hkept [numbersEdit]
  have hempty : (listedHost.archive listedSettings).contents emptyWorld.files = .ok (.empty, []) := rfl
  cases hempty.symm.trans hinitial
  exact ⟨hkept, hdone, _, rfl, hfails, (hmore brokenLoad).2.2 hsaves, loaded, reference, document, hloaded, hshadow,
    hdocument, hreference⟩

/-- A load of letters by a route with half a character in it. -/
def halfLoad : Edit :=
  .load (.list [.record [("name", .text "letters"), ("type", .text "list")]])
    (.ofText (String.ofList ['a', Text.charOfCode 0xdc80]))

/-- The definitions are saved, and yet the process exits with one. -/
theorem halfLoad_is_saved :
    listedHost.Loads listedSettings ∧ (listedHost.archive listedSettings).Kept emptyWorld.files ∧
      (halfLoad.run listedHost listedSettings emptyWorld).1.ending.status = 1 ∧
      (halfLoad.run listedHost listedSettings emptyWorld).2.files.get? (listedHost.archive listedSettings).place ≠
        emptyWorld.files.get? (listedHost.archive listedSettings).place :=
  ⟨⟨_, _, rfl⟩, .inl rfl, by decide +kernel, by decide +kernel⟩

end Foreach.Cli

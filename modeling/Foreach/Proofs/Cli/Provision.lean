import Foreach.Proofs.Cli.Status
import Foreach.Proofs.Provider.Loading
import Foreach.Proofs.Provider.Resolution

/-!
Commands whose providers cannot be loaded.

Every command that gets as far as its desk loads the providers before anything else. If that fails, it changes
nothing and exits with one, or with the status that the fault has of its own. The user is told of a fault that is
meant for the user; any other is no ordinary one, or what stands behind one of the entry points in the settings
has failed by itself.
-/

namespace Foreach.Cli

variable {σ α : Type} [BEq α] {h : Host σ α} {w : World} {s : Settings} {c : Command} {args : List String} {f : Fault}

/-- The command gets to its desk: a definition is asked for with a proper name and a type, and a file to be
loaded is there. -/
def Command.Works (h : Host σ α) (w : World) : Command → Prop
  | .define name type _ _ => isProper name (type.getD "") = true
  | .load route => w.files.isFile (w.files.locate route h.directory) = true
  | _ => True

/-- The command line is understood, and its settings are valid. -/
structure Accepts (h : Host σ α) (w : World) (args : List String) (s : Settings) (c : Command) : Prop where
  understood : ∃ group rest, Group.ofArguments args = some (group, rest) ∧
    Command.ofArguments group rest = some c
  settings : h.settings w.files = .ok s

omit [BEq α] in
theorem Accepts.understood_eq (haccepts : Accepts h w args s c) : understand h args w.files = .ok (s, c) := by
  obtain ⟨⟨group, rest, hgroup, hcommand⟩, hsettings⟩ := haccepts
  simp only [understand, hgroup, hsettings, hcommand, Option.elim_some]

/-- Without a desk a command does nothing more, and so it comes to an end. -/
theorem Command.Works.run_of_no_desk (hworks : c.Works h w) {notices : List Notice} {files : Files}
    (hdesk : h.desk s w.files = (.error f, notices, files)) :
    ∃ ends : c.Ends h s w, c.run h s w ends = (⟨.ofFault f, [], notices⟩, { w with files }) := by
  have hwith : ∀ work : Work σ, withDesk h s w work = (⟨.ofFault f, [], notices⟩, { w with files }) := by
    intro work
    simp only [withDesk, hdesk]
  cases c with
  | define name type description extra => exact ⟨trivial, (if_pos hworks).trans (hwith _)⟩
  | load route => exact ⟨trivial, (if_pos hworks).trans (hwith _)⟩
  | list | inspect | delete | providers | status =>
    refine ⟨trivial, ?_⟩
    simp only [Command.run]
    exact hwith _
  | foreach words action runId ledger =>
    have hopen : openRun h s w runId ledger = .error (⟨.ofFault f, [], notices⟩, { w with files }) := by
      simp only [openRun, hdesk]
    have hends : RunEnds h s w words action runId ledger := by
      intro o ho
      cases hopen.symm.trans ho
    exact ⟨hends, foreach_of_refused hends hopen⟩

/-- Without its providers a command has no desk. -/
theorem run_of_unloaded (haccepts : Accepts h w args s c) (hworks : c.Works h w)
    (hload : (h.catalogue.load .empty h.installed s.entrypoints).1 = .error f) :
    ∃ ends notices, Cli.run h args w ends = (⟨.ofFault f, [], notices⟩, w) := by
  obtain ⟨notices, hdesk⟩ := desk_of_unloaded hload w.files
  obtain ⟨hends, hrun⟩ := hworks.run_of_no_desk hdesk
  have hall : Ends h args w := by
    intro s' c' hunderstood
    cases haccepts.understood_eq.symm.trans hunderstood
    exact hends
  refine ⟨hall, notices, ?_⟩
  rw [run_of_understood haccepts.understood_eq, hrun]
  rfl

/-- A command that a fault stops tells the user of it, if it is a reported one, and otherwise says nothing. -/
theorem told_or_failed (f : Fault) (notices : List Notice) :
    f.isReported = true ∧ (⟨.ofFault f, [], notices⟩ : Reply).Refuses f.message ∨
      f.isReported = false ∧ Ending.ofFault f = f.status?.elim (.failed f) .left ∧
        (⟨.ofFault f, [], notices⟩ : Reply).errorLines = [] := by
  cases hreported : f.isReported with
  | true => exact .inl ⟨rfl, Reply.refuses_of_ending (if_pos hreported)⟩
  | false =>
    have hending : Ending.ofFault f = f.status?.elim (.failed f) .left := if_neg (by simp [hreported])
    refine .inr ⟨rfl, hending, ?_⟩
    rw [hending]
    cases f.status? <;> rfl

end Foreach.Cli

namespace Foreach.Catalogue

variable {α : Type} {c : Catalogue α} {installed : List Installed} {entrypoints : List String} {f : Fault}

/-- What loading can fail with. -/
theorem load_eq_error [BEq α] {r : Registry α} (h : (c.load r installed entrypoints).1 = .error f) :
    (∃ cause, f = .load cause) ∨ f.isOrdinary = false ∨
      ∃ e ∈ entrypoints.zipIdx installed.length, c.Escapes e.2 e.1 f := by
  cases hproviders : c.providers installed entrypoints with
  | error failure =>
    obtain ⟨g, notices⟩ := failure
    have heq : Except.error g = (Except.error f : Except Fault (Registry α × List String)) := by
      rw [← h, load, loadInto, hproviders]
      rfl
    cases heq
    rcases fails_of_providers hproviders with ⟨i, -, more, hdiscover⟩ | ⟨e, he, hresolve⟩
    · rcases discover_eq_error hdiscover with hcause | hstop
      · exact .inl hcause
      · exact .inr (.inl hstop)
    · rcases resolve_eq_error hresolve with hcause | hescapes
      · exact .inl hcause
      · exact .inr (.inr ⟨e, he, hescapes⟩)
  | ok found =>
    obtain ⟨after, notices, hregister, -⟩ := registerAll_ok r found
    rw [load, loadInto, hproviders] at h
    simp only [hregister] at h
    cases h

end Foreach.Catalogue

namespace Foreach.Cli

/-- What becomes of entry points, and of the commands that load them. An entry point leads to a provider just
if it names something that declares a type and can generate items; what fails behind it by itself is its
failure, and everything else is refused as something that cannot be loaded. A command that loads providers and
fails in it comes to an end and leaves all files alone. The user is told why if the fault is a reported one, as
a refusal is, and the command exits with one. Otherwise nobody has made anything for the fault, and the command
exits with one as well, unless the fault has a status of its own: it is no ordinary one, or what stands behind an
entry point in the settings has failed by itself. -/
theorem unloaded_providers_told {σ α : Type} [BEq α] (h : Host σ α) (w : World) :
    (∀ serial entrypoint type p, h.catalogue.resolve serial entrypoint = .ok (type, p) ↔
      ∃ candidate, h.catalogue.Names serial entrypoint candidate ∧ candidate.type = some (.text type) ∧
        type ≠ "" ∧ candidate.provider? = some p) ∧
    (∀ serial entrypoint f, h.catalogue.Escapes serial entrypoint f →
      h.catalogue.resolve serial entrypoint = .error f) ∧
    (∀ serial entrypoint f, h.catalogue.resolve serial entrypoint = .error f →
      (∃ cause, f = .load cause) ∨ h.catalogue.Escapes serial entrypoint f) ∧
    ∀ args s c f, Accepts h w args s c → c.Works h w →
      (h.catalogue.load .empty h.installed s.entrypoints).1 = .error f →
      ∃ ends, (Cli.run h args w ends).1.ending.status = f.status?.elim 1 UInt8.toNat ∧
      (Cli.run h args w ends).2 = w ∧
      (f.isReported = true ∧ (Cli.run h args w ends).1.Refuses f.message ∨
        f.isReported = false ∧ (Cli.run h args w ends).1.ending = f.status?.elim (.failed f) .left ∧
          (Cli.run h args w ends).1.errorLines = [] ∧
          (f.isOrdinary = false ∨
            ∃ e ∈ s.entrypoints.zipIdx h.installed.length, h.catalogue.Escapes e.2 e.1 f)) := by
  refine ⟨fun serial entrypoint type p => Catalogue.resolve_eq_ok_iff,
    fun serial entrypoint f => Catalogue.resolve_of_escapes,
    fun serial entrypoint f => Catalogue.resolve_eq_error, ?_⟩
  intro args s c f haccepts hworks hload
  obtain ⟨ends, notices, hrun⟩ := run_of_unloaded haccepts hworks hload
  refine ⟨ends, ?_⟩
  rw [hrun]
  refine ⟨status_ofFault_eq f, rfl, ?_⟩
  rcases told_or_failed f notices with hrefuses | ⟨hreported, hending, hlines⟩
  · exact .inl hrefuses
  · refine .inr ⟨hreported, hending, hlines, ?_⟩
    rcases Catalogue.load_eq_error hload with ⟨cause, rfl⟩ | hother
    · cases hreported
    · exact hother

/-! ### A factory that fails -/

/-- A module that offers a procedure to make a provider, which fails. -/
def factory : Catalogue (FiniteProvider Nat) :=
  ⟨[("plugins", .offers [("make_items", .procedure "function" fun _ => .error (.badValue "no items"))])]⟩

/-- A host whose settings ask for one entry point. -/
def factoryHost (entrypoint : String) : Host Nat (FiniteProvider Nat) :=
  ⟨[], [("ITERBATCH_PROVIDERS", entrypoint)], factory, Subtype.val, [], 0, CommandRunner.quiet, .int 0, "run"⟩

def factorySettings (entrypoint : String) : Settings :=
  ⟨".iterbatch/iterables.json", entrypoint, none, 1800, ".iterbatch/runs", true, .warning⟩

theorem accepts_factory (entrypoint : String)
    (hsettings : ((factoryHost entrypoint).settings emptyWorld.files).toOption = some (factorySettings entrypoint)) :
    Accepts (factoryHost entrypoint) emptyWorld ["iterable", "list"] (factorySettings entrypoint) (.list false) where
  understood := ⟨.iterable, ["list"], rfl, rfl⟩
  settings := eq_ok_of_toOption hsettings

/-- A name that the module does not offer is refused. The failure of the procedure ends the command as it
is. -/
theorem unloaded_providers_told_factory :
    (∃ ends, (Cli.run (factoryHost "plugins:nothing") ["iterable", "list"] emptyWorld ends).1.Refuses
      "Provider 'nothing' not found in plugins") ∧
    ∃ ends, (Cli.run (factoryHost "plugins:make_items") ["iterable", "list"] emptyWorld ends).1.ending =
      .failed (.badValue "no items") := by
  have hnothing := accepts_factory "plugins:nothing" (by decide +kernel)
  have hmake := accepts_factory "plugins:make_items" (by decide +kernel)
  constructor
  · obtain ⟨-, -, -, hcommand⟩ := unloaded_providers_told (factoryHost "plugins:nothing") emptyWorld
    rcases hcommand _ _ _ (.load (.absent "nothing" "plugins")) hnothing trivial rfl with
      ⟨ends, -, -, ⟨-, hrefuses⟩ | ⟨hreported, -⟩⟩
    · exact ⟨ends, hrefuses⟩
    · cases hreported
  · obtain ⟨-, -, -, hcommand⟩ := unloaded_providers_told (factoryHost "plugins:make_items") emptyWorld
    rcases hcommand _ _ _ (.badValue "no items") hmake trivial rfl with
      ⟨ends, -, -, ⟨hreported, -⟩ | ⟨-, hending, -⟩⟩
    · cases hreported
    · exact ⟨ends, hending⟩

/-- The failure of the procedure gets out, and so does that of a module without a name: neither is reported,
and a command that asks for the procedure exits with one without a word. -/
theorem factory_failure_escapes :
    factory.resolve 0 "plugins:make_items" = .error (.badValue "no items") ∧
    factory.resolve 0 ":make_items" = .error (.badValue "Empty module name") ∧
    ∃ ends, (Cli.run (factoryHost "plugins:make_items") ["iterable", "list"] emptyWorld ends).1.ending.status = 1 ∧
      (Cli.run (factoryHost "plugins:make_items") ["iterable", "list"] emptyWorld ends).1.errorLines = [] := by
  have hmake := accepts_factory "plugins:make_items" (by decide +kernel)
  obtain ⟨ends, notices, hrun⟩ := run_of_unloaded hmake trivial (f := .badValue "no items") rfl
  refine ⟨rfl, rfl, ends, ?_⟩
  rw [hrun]
  exact ⟨rfl, rfl⟩

end Foreach.Cli

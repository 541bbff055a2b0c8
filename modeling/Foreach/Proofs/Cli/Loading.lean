import Mathlib
import Foreach.Proofs.Cli.Provision
import Foreach.Proofs.Definition.Manifest

/-!
Loading a file of definitions.

The command reads the document behind the lock and defines its entries in the store. If that fails, nothing is
saved, and the command exits with one. The user is told of a refusal. Of an entry that slips through the
checks nothing is said.
-/

namespace Foreach.Cli

variable {σ α : Type} [BEq α] {h : Host σ α} {w : World} {s : Settings} {args : List String} {route : Route}
  {document : Value} {d : Desk σ} {files : Files} {f : Fault} {clock : Clock}

/-- The command line asks for a file to be loaded, which holds this document, and the command gets this desk.
The archive is locked then. -/
structure Presents (h : Host σ α) (w : World) (args : List String) (route : Route) (document : Value) (d : Desk σ)
    (files : Files) : Prop where
  accepted : ∃ s notices, Accepts h w args s (.load route) ∧ h.desk s w.files = (.ok d, notices, files)
  holds : ∃ bytes cs, w.files.get? (w.files.locate route h.directory) = some (.file bytes) ∧
    Utf8.decode bytes = some cs ∧ Yaml.read cs = .ok document

omit [BEq α] in
theorem loadDocument_eq_failed
    (hdefine : Manifest.define d.registry.hasKey d.store w.clock document = (.error f, clock)) :
    loadDocument route document d w = (.ends (.ofFault f), { w with clock }) := by
  unfold Manifest.define at hdefine
  unfold loadDocument
  cases hentries : Manifest.entries document with
  | error g =>
    rw [hentries] at hdefine
    cases hdefine
    rfl
  | ok entries =>
    rw [hentries] at hdefine
    simp only [hdefine]

/-- The command ends as soon as the entries cannot be defined. -/
theorem run_of_undefined (hpresents : Presents h w args route document d files)
    (hdefine : Manifest.define d.registry.hasKey d.store w.clock document = (.error f, clock)) :
    ∃ ends notices, Cli.run h args w ends = (⟨.ofFault f, [], notices⟩, ⟨files, clock⟩) := by
  obtain ⟨⟨s, notices, haccepts, hdesk⟩, bytes, cs, hfile, hdecode, hread⟩ := hpresents
  have hends : Ends h args w := by
    intro s' c' hunderstood
    cases haccepts.understood_eq.symm.trans hunderstood
    trivial
  have hfailed : loadDocument route document d { w with files } = (.ends (.ofFault f), ⟨files, clock⟩) :=
    loadDocument_eq_failed hdefine
  refine ⟨hends, notices ++ [], ?_⟩
  rw [run_of_understood haccepts.understood_eq, Command.run_load hfile hdecode hread]
  simp only [withDesk, hdesk, hfailed]
  rfl

/-- What becomes of a document that lists definitions, and of the command that loads it. All entries are
defined, each over the store that those in front of it have made, just if each of them can be, whatever the
store holds. Otherwise the document is refused with a reported fault, or its first entry that cannot be defined
has passed every check and yet has a spec or a description of the wrong form: that entry is invalid, and the
fault is not a reported one. Either way the command exits with one and leaves the locked files alone. It tells
the user why it refuses a document, and says nothing of an invalid entry. -/
theorem manifest_defined_or_told {σ α : Type} [BEq α] (h : Host σ α) (w : World) :
    (∀ registered store clock document after clock',
      Manifest.define registered store clock document = (.ok after, clock') ↔
        ∃ entries, Manifest.Lists document entries ∧
          Manifest.InOrder registered store clock entries after clock') ∧
    (∀ registered store clock document,
      (∃ after clock', Manifest.define registered store clock document = (.ok after, clock')) ↔
        ∃ entries, Manifest.Lists document entries ∧ ∀ entry ∈ entries, Manifest.Definable registered entry) ∧
    (∀ registered store clock document f clock',
      Manifest.define registered store clock document = (.error f, clock') →
        f.isReported = true ∨ ∃ issues, f = .invalid issues) ∧
    (∀ registered store clock document,
      (∃ issues clock', Manifest.define registered store clock document = (.error (.invalid issues), clock')) ↔
        ∃ before entry rest, Manifest.Lists document (before ++ entry :: rest) ∧
          (∀ e ∈ before, Manifest.Definable registered e) ∧ Manifest.Slips registered entry) ∧
    ∀ args route document d files f clock, Presents h w args route document d files →
      Manifest.define d.registry.hasKey d.store w.clock document = (.error f, clock) →
      ∃ ends, (Cli.run h args w ends).1.ending.status = 1 ∧ (Cli.run h args w ends).2.files = files ∧
      (f.isReported = true ∧ (Cli.run h args w ends).1.Refuses f.message ∨
        (∃ issues, f = .invalid issues) ∧ (Cli.run h args w ends).1.ending = .failed f ∧
          (Cli.run h args w ends).1.errorLines = []) := by
  refine ⟨fun registered store clock document after clock' => Manifest.define_eq_ok_iff, ?_, ?_,
    fun registered store clock document => Manifest.define_eq_invalid_iff, ?_⟩
  · intro registered store clock document
    simp only [Manifest.define_eq_ok_iff]
    constructor
    · rintro ⟨after, clock', entries, hlists, hinOrder⟩
      exact ⟨entries, hlists, (Manifest.exists_inOrder_iff store clock).1 ⟨after, clock', hinOrder⟩⟩
    · rintro ⟨entries, hlists, hall⟩
      obtain ⟨after, clock', hinOrder⟩ := (Manifest.exists_inOrder_iff store clock).2 hall
      exact ⟨after, clock', entries, hlists, hinOrder⟩
  · intro registered store clock document f clock' hdefine
    exact (Manifest.define_eq_error hdefine).imp_right fun hslips => hslips.1
  · intro args route document d files f clock hpresents hdefine
    obtain ⟨ends, notices, hrun⟩ := run_of_undefined hpresents hdefine
    have hown := Manifest.status?_of_define hdefine
    refine ⟨ends, ?_⟩
    rw [hrun]
    refine ⟨by rw [status_ofFault_eq, hown, Option.elim_none], rfl, ?_⟩
    rcases told_or_failed f notices with hrefuses | ⟨hreported, hending, hlines⟩
    · exact .inl hrefuses
    · rw [hown] at hending
      refine .inr ⟨?_, hending, hlines⟩
      rcases Manifest.define_eq_error hdefine with htold | ⟨hinvalid, -⟩
      · rw [hreported] at htold
        cases htold
      · exact hinvalid

/-! ### Entries of a provider that lists items -/

/-- A host whose settings ask for the provider that lists items. -/
def manifestHost : Host Nat (FiniteProvider Nat) :=
  { listedHost with environment := [("ITERBATCH_PROVIDERS", "builtin:Listed")] }

def manifestSettings : Settings :=
  ⟨".iterbatch/iterables.json", "builtin:Listed", none, 1800, ".iterbatch/runs", true, .warning⟩

def manifestDesk : Desk Nat :=
  ⟨manifestHost.providers manifestSettings, .empty, manifestHost.archive manifestSettings⟩

/-- A good entry, and one with a number for a description. -/
def lettersAndNumbers : Value :=
  .list [.record [("name", .text "letters"), ("type", .text "list")],
    .record [("name", .text "numbers"), ("type", .text "list"), ("description", .int 5)]]

def lettersAndNumbersText : String :=
  "[\x7bname: letters, type: list\x7d, \x7bname: numbers, type: list, description: 5\x7d]"

set_option maxRecDepth 100000 in
theorem read_lettersAndNumbersText : Yaml.read lettersAndNumbersText.toList = .ok lettersAndNumbers := by
  cbv

/-- Files with the two entries to load. -/
def manifestWorld : World :=
  { emptyWorld with files := Files.empty.set ["d.yaml"] (.file (Files.ofText lettersAndNumbersText)) }

/-- The second entry slips through the checks: the command exits with one and says nothing, and the first one is
not kept either. -/
theorem manifest_defined_or_told_numbers :
    ∃ ends, (Cli.run manifestHost ["iterable", "load", "d.yaml"] manifestWorld ends).1.ending.status = 1 ∧
      (Cli.run manifestHost ["iterable", "load", "d.yaml"] manifestWorld ends).1.ending =
        .failed (.invalid [.inField "description" .notText]) ∧
      (Cli.run manifestHost ["iterable", "load", "d.yaml"] manifestWorld ends).1.errorLines = [] ∧
      (Cli.run manifestHost ["iterable", "load", "d.yaml"] manifestWorld ends).2.files.get?
        (manifestHost.archive manifestSettings).place = none := by
  have hsettings : manifestHost.settings manifestWorld.files = .ok manifestSettings :=
    eq_ok_of_toOption (by decide +kernel)
  have hpresents : Presents manifestHost manifestWorld ["iterable", "load", "d.yaml"] (.ofText "d.yaml")
      lettersAndNumbers manifestDesk (manifestHost.desk manifestSettings manifestWorld.files).2.2 :=
    { accepted := ⟨manifestSettings, [], ⟨⟨.iterable, ["load", "d.yaml"], rfl, rfl⟩, hsettings⟩, rfl⟩
      holds := ⟨_, _, rfl, Utf8.decode_encode _, read_lettersAndNumbersText⟩ }
  have hdefine : Manifest.define manifestDesk.registry.hasKey manifestDesk.store manifestWorld.clock lettersAndNumbers =
      (.error (.invalid [.inField "description" .notText]), emptyWorld.clock.tick.tick) := rfl
  obtain ⟨-, -, -, -, hcommand⟩ := manifest_defined_or_told manifestHost manifestWorld
  obtain ⟨ends, hstatus, hfiles, hrefuses | ⟨-, hending, hlines⟩⟩ := hcommand _ _ _ _ _ _ _ hpresents hdefine
  · cases hrefuses.1
  · exact ⟨ends, hstatus, hending, hlines, by rw [hfiles]; decide +kernel⟩

/-- An entry for the provider that lists items, with one more field. -/
def numbersWith (field : String) (v : Value) : Value :=
  .record [("numbers", .record [("type", .text "list"), (field, v)])]

/-- A description that is a number and a spec with a number for a key pass all checks. Neither can be defined,
and the command exits with one without a word. -/
theorem numbers_slip_through :
    (∀ document ∈ [numbersWith "description" (.int 5), numbersWith "spec" (.map [(.int 1, .text "a")])],
      let reply := (loadDocument (.ofText "d.yaml") (.record [("iterables", document)]) manifestDesk emptyWorld).1
      reply.ending.status = 1 ∧ reply.errorLines = []) ∧
    (Manifest.define manifestDesk.registry.hasKey .empty emptyWorld.clock
      (.record [("iterables", numbersWith "description" (.int 5))])).1 =
        .error (.invalid [.inField "description" .notText]) := by
  refine ⟨?_, rfl⟩
  intro document hdocument
  rcases List.mem_pair.1 hdocument with rfl | rfl
  · exact ⟨rfl, rfl⟩
  · exact ⟨rfl, rfl⟩

end Foreach.Cli

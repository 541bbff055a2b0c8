import Foreach.Proofs.Text.Cut
import Foreach.Provider.Catalogue

/-!
What becomes of an entry point.

Its last colon parts a module from a name. The module is imported after all packages around it, and the thing
under the name is made or called. What comes of that is a provider, or the entry point is refused as one that
cannot be loaded. Two failures are not of that kind, but those of whatever failed: that of a module on the way
which is given up without a reason, and that of the thing itself. An installed entry point has no such
failures, for they are wrapped.
-/

namespace Foreach.Catalogue

variable {α : Type} {c : Catalogue α} {serial : Nat} {entrypoint : String} {f : Fault}

/-! ### The last colon -/

theorem splitLast_append {home name : List Char} (h : ':' ∉ name) :
    splitLast (home ++ ':' :: name) = some (home, name) := by
  have hreverse : (home ++ ':' :: name).reverse = name.reverse ++ ':' :: home.reverse := by simp
  have htail : ((home ++ ':' :: name).reverse.takeWhile (· != ':')).reverse = name := by
    rw [hreverse, Text.takeWhile_ne_append (by simpa using h), List.reverse_reverse]
  have hlength : (home ++ ':' :: name).length = home.length + 1 + name.length := by
    rw [List.length_append, List.length_cons]
    omega
  have hbefore : home.length + 1 + name.length - name.length - 1 = home.length := by omega
  unfold splitLast
  dsimp only
  rw [htail, hlength, if_pos (by omega), hbefore, List.take_left]

theorem splitLast_of_not_mem {cs : List Char} (h : ':' ∉ cs) : splitLast cs = none := by
  have hall : cs.reverse.takeWhile (· != ':') = cs.reverse := by
    rw [List.takeWhile_eq_self_iff]
    intro d hd
    exact bne_iff_ne.2 (ne_of_mem_of_not_mem (List.mem_reverse.1 hd) h)
  unfold splitLast
  dsimp only
  rw [hall, List.reverse_reverse, if_neg (Nat.lt_irrefl _)]

theorem splitLast_eq_some_iff {cs home name : List Char} :
    splitLast cs = some (home, name) ↔ cs = home ++ ':' :: name ∧ ':' ∉ name := by
  constructor
  · intro h
    by_cases hcolon : ':' ∈ cs
    · obtain ⟨after, before, hcs, hafter⟩ := List.eq_append_cons_of_mem (List.mem_reverse.2 hcolon)
      have hsplit : cs = before.reverse ++ ':' :: after.reverse := by
        rw [← List.reverse_reverse cs, hcs]
        simp
      have hname : ':' ∉ after.reverse := by simpa using hafter
      rw [hsplit, splitLast_append hname] at h
      cases h
      exact ⟨hsplit, hname⟩
    · rw [splitLast_of_not_mem hcolon] at h
      cases h
  · rintro ⟨rfl, hname⟩
    exact splitLast_append hname

/-! ### Importing -/

/-- The import of a module fails, and not for want of a module: it has no name or one that begins with a dot,
or it is running a module that gives up, be it the module itself or a package around it, after all packages
around that one. -/
inductive ImportFails (c : Catalogue α) (name : List Char) : Fault → Prop
  | unnamed (hname : name = []) : c.ImportFails name (.badValue "Empty module name")
  | relative {rest : List Char} (hname : name = '.' :: rest) : c.ImportFails name (relativeImport name)
  | running {m : List Char} {f : Fault} (hname : name ≠ []) (hfirst : ∀ rest, name ≠ '.' :: rest)
    (hway : m = name ∨ ∃ rest, name = m ++ '.' :: rest)
    (haround : ∀ package rest, m = package ++ '.' :: rest →
      ∃ things, c.modules.lookup (String.ofList package) = some (.package things))
    (hfails : c.modules.lookup (String.ofList m) = some (.failing f)) : c.ImportFails name f

theorem importOne_eq_other {m : List Char} :
    c.importOne m = .error (.other f) ↔ c.modules.lookup (String.ofList m) = some (.failing f) := by
  unfold importOne
  rcases c.modules.lookup (String.ofList m) with - | things | things | reason | g <;> simp

theorem importOne_eq_package {m : List Char} {things : List (String × Thing α)} :
    c.importOne m = .ok (things, true) ↔
      c.modules.lookup (String.ofList m) = some (.package things) := by
  unfold importOne
  rcases c.modules.lookup (String.ofList m) with - | others | others | reason | g <;> simp

/-- The module `m` lies at `home` or further inside, on the way to `name`; it fails, and all modules from
`home` on are packages up to it. -/
structure FailsInside (c : Catalogue α) (home name m : List Char) (f : Fault) : Prop where
  inside : Text.split '.' home <+: Text.split '.' m
  way : Text.split '.' m <+: Text.split '.' name
  fails : c.importOne m = .error (.other f)
  packages : ∀ around, Text.split '.' home <+: Text.split '.' around →
    Text.split '.' around <+: Text.split '.' m → around ≠ m → ∃ things, c.importOne around = .ok (things, true)

section

variable {home name m next : List Char} {inner : List (List Char)}

theorem failsInside_home (hway : Text.split '.' home <+: Text.split '.' name)
    (hfails : c.importOne home = .error (.other f)) : c.FailsInside home name home f where
  inside := List.prefix_rfl
  way := hway
  fails := hfails
  packages _ haround hhome hne := absurd (Text.eq_of_split_isPrefix hhome haround) hne

theorem FailsInside.eq_of_error (h : c.FailsInside home name m f) {g : ImportFault}
    (hhome : c.importOne home = .error g) : m = home := by
  obtain ⟨hinside, -, -, haround⟩ := h
  by_contra hne
  obtain ⟨things, hthings⟩ := haround home List.prefix_rfl hinside (Ne.symm hne)
  cases hhome.symm.trans hthings

theorem split_inside (hparts : Text.split '.' home ++ next :: inner = Text.split '.' name) :
    Text.split '.' (home ++ '.' :: next) = Text.split '.' home ++ [next] := by
  have hmem : next ∈ Text.split '.' name := by
    rw [← hparts]
    exact List.mem_append_right _ List.mem_cons_self
  rw [Text.split_append, Text.split_of_not_mem (Text.not_mem_of_mem_split hmem)]

/-- On the way from a package inwards, the first module is the next one inside. -/
theorem split_inside_isPrefix (hparts : Text.split '.' home ++ next :: inner = Text.split '.' name)
    (hhome : Text.split '.' home <+: Text.split '.' m) (hway : Text.split '.' m <+: Text.split '.' name)
    (hne : m ≠ home) : Text.split '.' (home ++ '.' :: next) <+: Text.split '.' m := by
  rw [split_inside hparts]
  have hfirst : Text.split '.' home ++ [next] <+: Text.split '.' name := ⟨inner, by simpa using hparts⟩
  refine List.prefix_of_prefix_length_le hfirst hway ?_
  obtain ⟨rest, hrest⟩ := hhome
  cases rest with
  | nil =>
    rw [List.append_nil] at hrest
    exact absurd (Text.split_injective '.' hrest).symm hne
  | cons part rest =>
    rw [← hrest, List.length_append, List.length_append]
    simp

theorem failsInside_package (hparts : Text.split '.' home ++ next :: inner = Text.split '.' name)
    {things : List (String × Thing α)} (hhome : c.importOne home = .ok (things, true)) :
    c.FailsInside home name m f ↔ c.FailsInside (home ++ '.' :: next) name m f := by
  have hinside : Text.split '.' home <+: Text.split '.' (home ++ '.' :: next) :=
    Text.split_isPrefix_iff.2 (.inr ⟨next, rfl⟩)
  constructor
  · rintro ⟨hm, hway, hfails, haround⟩
    have hne : m ≠ home := by
      rintro rfl
      cases hhome.symm.trans hfails
    refine ⟨split_inside_isPrefix hparts hm hway hne, hway, hfails, fun around haroundHome => ?_⟩
    exact haround around (hinside.trans haroundHome)
  · rintro ⟨hm, hway, hfails, haround⟩
    refine ⟨hinside.trans hm, hway, hfails, fun around haroundHome haroundM hne => ?_⟩
    by_cases heq : around = home
    · exact ⟨things, heq ▸ hhome⟩
    · have hfurther := split_inside_isPrefix hparts haroundHome (haroundM.trans hway) heq
      exact haround around hfurther haroundM hne

/-- Induction on the names that are still to go, which with those of `home` make up the whole name. -/
theorem importInside_eq_other (hparts : Text.split '.' home ++ inner = Text.split '.' name) :
    c.importInside home inner = .error (.other f) ↔ ∃ m, c.FailsInside home name m f := by
  induction inner generalizing home with
  | nil =>
    obtain rfl := Text.split_injective '.' ((List.append_nil _).symm.trans hparts)
    have hmap : c.importInside home [] = .error (.other f) ↔ c.importOne home = .error (.other f) := by
      unfold importInside
      cases c.importOne home <;> simp [Except.map]
    rw [hmap]
    constructor
    · intro hfails
      exact ⟨home, failsInside_home List.prefix_rfl hfails⟩
    · rintro ⟨m, hhome, hm, hfails, -⟩
      obtain rfl := Text.eq_of_split_isPrefix hm hhome
      exact hfails
  | cons next inner ih =>
    have hway : Text.split '.' home <+: Text.split '.' name := ⟨next :: inner, hparts⟩
    unfold importInside
    dsimp only
    split
    next g hhome =>
      constructor
      · intro heq
        cases heq
        exact ⟨home, failsInside_home hway hhome⟩
      · rintro ⟨m, hfails⟩
        obtain rfl := hfails.eq_of_error hhome
        cases hhome.symm.trans hfails.fails
        rfl
    next things hhome =>
      have hinside : Text.split '.' (home ++ '.' :: next) ++ inner = Text.split '.' name := by
        rw [split_inside hparts, List.append_assoc]
        exact hparts
      rw [ih hinside]
      exact exists_congr fun m => (failsInside_package hparts hhome).symm
    next things hhome =>
      -- What is no package has nothing inside it, which is for want of a module.
      refine ⟨nofun, ?_⟩
      rintro ⟨m, hinside, -, hfails, haround⟩
      by_cases hm : home = m
      · cases hhome.symm.trans (hm ▸ hfails)
      · obtain ⟨others, hothers⟩ := haround home List.prefix_rfl hinside hm
        cases hhome.symm.trans hothers

theorem importInside_split {top : List Char} (hname : name ≠ []) (hfirst : ∀ rest, name ≠ '.' :: rest)
    (hsplit : Text.split '.' name = top :: inner) :
    c.importInside top inner = .error (.other f) ↔ c.ImportFails name f := by
  have hmem : top ∈ Text.split '.' name := by
    rw [hsplit]
    exact List.mem_cons_self
  have htop : Text.split '.' top = [top] := Text.split_of_not_mem (Text.not_mem_of_mem_split hmem)
  have hparts : Text.split '.' top ++ inner = Text.split '.' name := by rw [htop, hsplit]; rfl
  have hfrom : ∀ m, Text.split '.' m <+: Text.split '.' name → Text.split '.' top <+: Text.split '.' m := by
    intro m hm
    have hone : (Text.split '.' top).length ≤ (Text.split '.' m).length := by
      rw [htop]
      exact List.length_pos_iff.2 (Text.split_ne_nil '.' m)
    exact List.prefix_of_prefix_length_le ⟨inner, hparts⟩ hm hone
  rw [importInside_eq_other hparts]
  constructor
  · rintro ⟨m, -, hway, hfails, haround⟩
    refine .running hname hfirst (Text.split_isPrefix_iff.1 hway) ?_ (importOne_eq_other.1 hfails)
    intro around rest hm
    have haroundM : Text.split '.' around <+: Text.split '.' m := Text.split_isPrefix_iff.2 (.inr ⟨rest, hm⟩)
    have hne : around ≠ m := by
      intro heq
      have hlength := congrArg List.length (heq.trans hm)
      simp at hlength
    obtain ⟨things, hthings⟩ := haround around (hfrom around (haroundM.trans hway)) haroundM hne
    exact ⟨things, importOne_eq_package.1 hthings⟩
  · intro h
    cases h with
    | unnamed hempty => exact absurd hempty hname
    | relative hdot => exact absurd hdot (hfirst _)
    | @running m f _ _ hway haround hfails =>
      have hm := Text.split_isPrefix_iff.2 hway
      refine ⟨m, hfrom m hm, hm, importOne_eq_other.2 hfails, fun around _ haroundM hne => ?_⟩
      rcases Text.split_isPrefix_iff.1 haroundM with heq | ⟨rest, hrest⟩
      · exact absurd heq hne
      · obtain ⟨things, hthings⟩ := haround around rest hrest
        exact ⟨things, importOne_eq_package.2 hthings⟩

theorem things_of_dot (c : Catalogue α) (rest : List Char) :
    c.things ('.' :: rest) = .error (.other (relativeImport ('.' :: rest))) := by
  have hsplit : Text.split '.' ('.' :: rest) = [] :: Text.split '.' rest := by simp [Text.split]
  unfold things
  rw [hsplit]
  cases hrest : Text.split '.' rest with
  | nil => exact absurd hrest (Text.split_ne_nil '.' rest)
  | cons part parts => rfl

theorem things_of_proper (c : Catalogue α) (hname : name ≠ []) (hfirst : ∀ rest, name ≠ '.' :: rest) :
    ∃ top inner, Text.split '.' name = top :: inner ∧ c.things name = c.importInside top inner := by
  unfold things
  split
  next h => exact absurd (Text.split_injective '.' h) hname
  next h => exact absurd h (Text.split_ne_nil '.' name)
  next h =>
    have hempty : Text.split '.' [] <+: Text.split '.' name := ⟨_, h.symm⟩
    rcases Text.split_isPrefix_iff.1 hempty with hnil | ⟨rest, hrest⟩
    · exact absurd hnil.symm hname
    · exact absurd hrest (hfirst rest)
  next top inner _ _ hsplit => exact ⟨top, inner, hsplit, rfl⟩

/-- An import fails for want of a module or in one of these ways. -/
theorem things_eq_other : c.things name = .error (.other f) ↔ c.ImportFails name f := by
  constructor
  · intro h
    by_cases hname : name = []
    · subst hname
      cases h
      exact .unnamed rfl
    · by_cases hfirst : ∃ rest, name = '.' :: rest
      · obtain ⟨rest, rfl⟩ := hfirst
        rw [things_of_dot] at h
        cases h
        exact .relative rfl
      · obtain ⟨top, inner, hsplit, hthings⟩ := things_of_proper c hname (not_exists.1 hfirst)
        rw [hthings] at h
        exact (importInside_split hname (not_exists.1 hfirst) hsplit).1 h
  · intro h
    cases id h with
    | unnamed hempty =>
      subst hempty
      rfl
    | relative hdot =>
      subst hdot
      exact things_of_dot c _
    | running hname hfirst =>
      obtain ⟨top, inner, hsplit, hthings⟩ := things_of_proper c hname hfirst
      rw [hthings]
      exact (importInside_split hname hfirst hsplit).2 h

end

/-! ### Resolving -/

/-- The entry point names a thing which is, or makes, this candidate: it stands under the name behind the last
colon in the module in front of it. -/
def Names (c : Catalogue α) (serial : Nat) (entrypoint : String) (candidate : Candidate α) : Prop :=
  ∃ home name things t, entrypoint.toList = home ++ ':' :: name ∧ ':' ∉ name ∧ c.things home = .ok things ∧
    thing? things name = some t ∧ t.candidate serial = .ok candidate

/-- What stands behind the entry point fails by itself: the import of the module, or the thing under the
name. -/
inductive Escapes (c : Catalogue α) (serial : Nat) (entrypoint : String) : Fault → Prop
  | importing {home name : List Char} {f : Fault} (hsplit : entrypoint.toList = home ++ ':' :: name)
    (hname : ':' ∉ name) (hfails : c.ImportFails home f) : c.Escapes serial entrypoint f
  | calling {home name : List Char} {things : List (String × Thing α)} {t : Thing α} {f : Fault}
    (hsplit : entrypoint.toList = home ++ ':' :: name) (hname : ':' ∉ name)
    (hthings : c.things home = .ok things) (hthing : thing? things name = some t)
    (hfails : t.candidate serial = .error f) : c.Escapes serial entrypoint f

theorem accept_eq_ok {candidate : Candidate α} {source type : String} {p : α} :
    accept candidate source = .ok (type, p) ↔
      candidate.type = some (.text type) ∧ type ≠ "" ∧ candidate.provider? = some p := by
  unfold accept
  split
  next declared hdeclared =>
    rw [hdeclared]
    by_cases hempty : declared = ""
    · rw [if_pos hempty]
      refine ⟨nofun, ?_⟩
      rintro ⟨heq, hne, -⟩
      cases heq
      exact absurd hempty hne
    · rw [if_neg hempty]
      cases candidate.provider? with
      | none => exact ⟨nofun, fun h => nomatch h.2.2⟩
      | some q =>
        constructor
        · intro h
          cases h
          exact ⟨rfl, hempty, rfl⟩
        · rintro ⟨htype, -, hp⟩
          cases htype
          cases hp
          rfl
  next hno =>
    refine ⟨nofun, ?_⟩
    rintro ⟨htype, -⟩
    exact absurd htype (hno type)

theorem accept_eq_error {candidate : Candidate α} {source : String} (h : accept candidate source = .error f) :
    ∃ cause, f = .load cause := by
  unfold accept at h
  split at h
  · split at h
    · exact ⟨_, (Except.error.inj h).symm⟩
    · split at h
      · cases h
      · exact ⟨_, (Except.error.inj h).symm⟩
  · exact ⟨_, (Except.error.inj h).symm⟩

theorem resolve_of_names {candidate : Candidate α} (h : c.Names serial entrypoint candidate) :
    c.resolve serial entrypoint = accept candidate entrypoint := by
  obtain ⟨home, name, things, t, hsplit, hname, hthings, hthing, hmakes⟩ := h
  rw [resolve, hsplit, splitLast_append hname]
  simp only [hthings, hthing, instantiate, hmakes]

/-- What fails by itself is the failure of the entry point. -/
theorem resolve_of_escapes (h : c.Escapes serial entrypoint f) : c.resolve serial entrypoint = .error f := by
  cases h with
  | importing hsplit hname hfails =>
    rw [resolve, hsplit, splitLast_append hname]
    simp only [things_eq_other.2 hfails]
  | calling hsplit hname hthings hthing hfails =>
    rw [resolve, hsplit, splitLast_append hname]
    simp only [hthings, hthing, instantiate, hfails]

/-- Everything else is refused. -/
theorem resolve_cases (c : Catalogue α) (serial : Nat) (entrypoint : String) :
    (∃ candidate, c.Names serial entrypoint candidate) ∨ (∃ f, c.Escapes serial entrypoint f) ∨
      ∃ cause, c.resolve serial entrypoint = .error (.load cause) := by
  cases hsplit : splitLast entrypoint.toList with
  | none =>
    refine .inr (.inr ⟨.malformed entrypoint, ?_⟩)
    simp only [resolve, hsplit]
  | some halves =>
    obtain ⟨home, name⟩ := halves
    obtain ⟨htext, hname⟩ := splitLast_eq_some_iff.1 hsplit
    cases hthings : c.things home with
    | error g =>
      cases g with
      | other f => exact .inr (.inl ⟨f, .importing htext hname (things_eq_other.1 hthings)⟩)
      | notImportable reason =>
        refine .inr (.inr ⟨.notImportable (String.ofList home) reason, ?_⟩)
        simp only [resolve, hsplit, hthings]
    | ok things =>
      cases hthing : thing? things name with
      | none =>
        refine .inr (.inr ⟨.absent (String.ofList name) (String.ofList home), ?_⟩)
        simp only [resolve, hsplit, hthings, hthing]
      | some t =>
        cases hmakes : t.candidate serial with
        | error f => exact .inr (.inl ⟨f, .calling htext hname hthings hthing hmakes⟩)
        | ok candidate => exact .inl ⟨candidate, home, name, things, t, htext, hname, hthings, hthing, hmakes⟩

/-- An entry point leads to a provider just if it names something that declares a type and can generate
items. -/
theorem resolve_eq_ok_iff {type : String} {p : α} :
    c.resolve serial entrypoint = .ok (type, p) ↔ ∃ candidate, c.Names serial entrypoint candidate ∧
      candidate.type = some (.text type) ∧ type ≠ "" ∧ candidate.provider? = some p := by
  constructor
  · intro h
    rcases resolve_cases c serial entrypoint with ⟨candidate, hnames⟩ | ⟨f, hescapes⟩ | ⟨cause, hcause⟩
    · rw [resolve_of_names hnames] at h
      exact ⟨candidate, hnames, accept_eq_ok.1 h⟩
    · cases h.symm.trans (resolve_of_escapes hescapes)
    · cases h.symm.trans hcause
  · rintro ⟨candidate, hnames, haccepted⟩
    rw [resolve_of_names hnames]
    exact accept_eq_ok.2 haccepted

/-- Whatever fails is refused as something that cannot be loaded, or fails by itself. -/
theorem resolve_eq_error (h : c.resolve serial entrypoint = .error f) :
    (∃ cause, f = .load cause) ∨ c.Escapes serial entrypoint f := by
  rcases resolve_cases c serial entrypoint with ⟨candidate, hnames⟩ | ⟨g, hescapes⟩ | ⟨cause, hcause⟩
  · rw [resolve_of_names hnames] at h
    exact .inl (accept_eq_error h)
  · cases h.symm.trans (resolve_of_escapes hescapes)
    exact .inr hescapes
  · cases h.symm.trans hcause
    exact .inl ⟨cause, rfl⟩

/-! ### Installed entry points -/

theorem installedFault_cases (i : Installed) (f : Fault) :
    (∃ cause, (installedFault i f).1 = .load cause) ∨ (installedFault i f).1.isOrdinary = false := by
  unfold installedFault
  split
  next cause => exact .inl ⟨cause, rfl⟩
  next =>
    split
    next => exact .inl ⟨_, rfl⟩
    next hstop => exact .inr (Bool.eq_false_iff.2 hstop)

/-- Nothing but a hard stop gets out of an installed entry point. -/
theorem discover_eq_error {i : Installed} {notices : List Notice}
    (h : c.discover serial i = .error (f, notices)) : (∃ cause, f = .load cause) ∨ f.isOrdinary = false := by
  have hwrapped : ∃ g, installedFault i g = (f, notices) := by
    unfold discover at h
    split at h
    next g _ => exact ⟨g, Except.error.inj h⟩
    next t _ =>
      cases hmade : instantiate t i.target serial with
      | error g =>
        rw [hmade] at h
        exact ⟨g, Except.error.inj h⟩
      | ok p =>
        rw [hmade] at h
        cases h
  obtain ⟨g, hg⟩ := hwrapped
  have hcases := installedFault_cases i g
  rw [hg] at hcases
  exact hcases

end Foreach.Catalogue

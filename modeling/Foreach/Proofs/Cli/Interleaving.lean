import Foreach.Proofs.Cli.Session
import Foreach.Proofs.Definition.Names

/-!
Two edits of one archive at the same time.

A process loads the store, changes it in memory and saves it. The lock is held while it loads and while it
saves, but not in between, so the steps of two processes can come in any order. If one of them has saved
before the other loads, it is as if they had come one after the other. If not, both change what was there
at first, and the archive keeps what the last of them to save has made of that: what the other has done is
lost.
-/

namespace Foreach.Cli

variable {σ α : Type} [BEq α] {h : Host σ α} {s : Settings} {w w' : World} {initial : Store}

/-! ### One process, step by step -/

/-- How far a process has come. -/
inductive Phase (σ : Type) where
  | idle
  | loaded (d : Desk σ) (notices : List Notice)
  | changed (d : Desk σ) (store : Store) (line : String) (notices : List Notice)
  | ended (reply : Reply)

/-- The exit status of a process that has come to its end. -/
def Phase.status? : Phase σ → Option Nat
  | .ended reply => some reply.printed.ending.status
  | _ => none

theorem Phase.of_status? {phase : Phase σ} {n : Nat} (hstatus : phase.status? = some n) :
    ∃ reply, phase = .ended reply ∧ reply.printed.ending.status = n := by
  cases phase with
  | ended reply => exact ⟨reply, rfl, Option.some.inj hstatus⟩
  | _ => cases hstatus

/-- How many steps there are to the end, at most. -/
def Phase.left : Phase σ → Nat
  | .idle => 3
  | .loaded .. => 2
  | .changed .. => 1
  | .ended _ => 0

theorem Phase.left_eq_zero {phase : Phase σ} (hleft : phase.left = 0) : ∃ reply, phase = .ended reply := by
  cases phase with
  | ended reply => exact ⟨reply, rfl⟩
  | _ => cases hleft

/-- The next step of a process, in the world as it is then. -/
def Edit.step (h : Host σ α) (s : Settings) (e : Edit) : Phase σ → World → Phase σ × World
  | .idle, w =>
    if e.isProper then
      match h.desk s w.files with
      | (.error f, notices, files) => (.ended ⟨.ofFault f, [], notices⟩, { w with files })
      | (.ok d, notices, files) => (.loaded d notices, { w with files })
    else (.ended (.ends (.refused Options.defineUsage)), w)
  | .loaded d notices, w =>
    match e.change d w.clock with
    | (.error f, clock) => (.ended ⟨.ofFault f, [], notices⟩, { w with clock })
    | (.ok (store, line), clock) => (.changed d store line notices, { w with clock })
  | .changed d store line notices, w =>
    let (reply, w) := keep d store line w
    (.ended { reply with notices := notices ++ reply.notices }, w)
  | .ended reply, w => (.ended reply, w)

theorem Edit.left_step (h : Host σ α) (s : Settings) (e : Edit) (phase : Phase σ) (w : World) :
    (e.step h s phase w).1.left ≤ phase.left - 1 := by
  cases phase with
  | idle =>
    simp only [step]
    split
    next => split <;> simp [Phase.left]
    next => simp [Phase.left]
  | loaded d notices =>
    simp only [step]
    split <;> simp [Phase.left]
  | changed d store line notices => exact Nat.le_refl 0
  | ended reply => exact Nat.le_refl 0

/-- A process that nothing has come in between, by how far it has come. -/
inductive Along (h : Host σ α) (s : Settings) (e : Edit) (w : World) : Phase σ → World → Prop
  | idle : Along h s e w .idle w
  | loaded {d : Desk σ} {notices : List Notice} {files : Files} (hproper : e.isProper = true)
    (hdesk : h.desk s w.files = (.ok d, notices, files)) : Along h s e w (.loaded d notices) { w with files }
  | changed {d : Desk σ} {notices : List Notice} {files : Files} {store : Store} {line : String} {clock : Clock}
    (hproper : e.isProper = true) (hdesk : h.desk s w.files = (.ok d, notices, files))
    (hchange : e.change d w.clock = (.ok (store, line), clock)) :
    Along h s e w (.changed d store line notices) ⟨files, clock⟩
  | ended : Along h s e w (.ended (e.command h s w).1) (e.command h s w).2

theorem Along.of_command {e : Edit} {reply : Reply} (hcommand : e.command h s w = (reply, w')) :
    Along h s e w (.ended reply) w' := by
  have hended : Along h s e w (.ended (e.command h s w).1) (e.command h s w).2 := .ended
  rwa [hcommand] at hended

/-- A process that nothing comes in between ends as its command does. -/
theorem Along.step {e : Edit} {phase : Phase σ} (halong : Along h s e w phase w') :
    Along h s e w (e.step h s phase w').1 (e.step h s phase w').2 := by
  cases halong with
  | idle =>
    simp only [Edit.step]
    split
    next hproper =>
      split
      next f notices files hdesk =>
        refine .of_command ?_
        rw [Edit.command_eq, if_pos hproper, withDesk, hdesk]
      next d notices files hdesk => exact .loaded hproper hdesk
    next hproper =>
      refine .of_command ?_
      rw [Edit.command_eq, if_neg hproper]
  | loaded hproper hdesk =>
    simp only [Edit.step]
    split
    next f clock hchange =>
      refine .of_command ?_
      rw [Edit.command_eq, if_pos hproper, withDesk, hdesk]
      simp only [Edit.work, hchange, Reply.ends, List.append_nil]
    next store line clock hchange => exact .changed hproper hdesk hchange
  | changed hproper hdesk hchange =>
    simp only [Edit.step]
    refine .of_command ?_
    rw [Edit.command_eq, if_pos hproper, withDesk, hdesk]
    simp only [Edit.work, hchange]
  | ended => exact .ended

theorem Along.of_ended {e : Edit} {reply : Reply} (halong : Along h s e w (.ended reply) w') :
    reply = (e.command h s w).1 ∧ w' = (e.command h s w).2 := by
  cases halong
  exact ⟨rfl, rfl⟩

/-! ### Two processes -/

/-- Two processes, told apart by a truth value, and the world that they share. -/
structure Pair (σ : Type) where
  phase : Bool → Phase σ
  world : World

/-- One of the processes takes a step. -/
def Pair.step (h : Host σ α) (s : Settings) (e : Bool → Edit) (p : Pair σ) (who : Bool) : Pair σ :=
  ⟨Function.update p.phase who ((e who).step h s (p.phase who) p.world).1,
    ((e who).step h s (p.phase who) p.world).2⟩

/-- Two processes after the steps of a schedule. -/
def interleave (h : Host σ α) (s : Settings) (w : World) (e : Bool → Edit) (schedule : List Bool) : Pair σ :=
  schedule.foldl (Pair.step h s e) ⟨fun _ => .idle, w⟩

variable {e : Bool → Edit} {p : Pair σ} {who : Bool} {schedule : List Bool}

theorem interleave_concat (h : Host σ α) (s : Settings) (w : World) (e : Bool → Edit) (schedule : List Bool)
    (who : Bool) :
    interleave h s w e (schedule ++ [who]) = (interleave h s w e schedule).step h s e who :=
  List.foldl_concat ..

namespace Pair

theorem phase_step_same (p : Pair σ) (who : Bool) :
    (p.step h s e who).phase who = ((e who).step h s (p.phase who) p.world).1 :=
  Function.update_self ..

theorem phase_step_other (p : Pair σ) {who other : Bool} (hne : other ≠ who) :
    (p.step h s e who).phase other = p.phase other :=
  Function.update_of_ne hne ..

/-- A process that has come to its end does nothing more. -/
theorem step_of_ended {reply : Reply} (hended : p.phase who = .ended reply) : p.step h s e who = p := by
  have hstep : (e who).step h s (p.phase who) p.world = (p.phase who, p.world) := by rw [hended, Edit.step]
  rw [step, hstep, Function.update_eq_self]

theorem ended_step {reply : Reply} {other : Bool} (hended : p.phase other = .ended reply) (who : Bool) :
    (p.step h s e who).phase other = .ended reply := by
  by_cases hwho : other = who
  · rw [← hwho, step_of_ended hended, hended]
  · rw [phase_step_other p hwho, hended]

end Pair

/-! ### One after the other -/

/-- While only one process takes steps, nothing comes in between. -/
theorem interleave_alone (h : Host σ α) (s : Settings) (w : World) (e : Bool → Edit) (who : Bool) (n : Nat) :
    Along h s (e who) w ((interleave h s w e (List.replicate n who)).phase who)
        (interleave h s w e (List.replicate n who)).world ∧
      ((interleave h s w e (List.replicate n who)).phase who).left ≤ 3 - n ∧
      (interleave h s w e (List.replicate n who)).phase (!who) = .idle := by
  induction n with
  | zero => exact ⟨.idle, Nat.le_refl 3, rfl⟩
  | succ n ih =>
    obtain ⟨halong, hleft, hidle⟩ := ih
    rw [List.replicate_succ', interleave_concat, Pair.phase_step_same,
      Pair.phase_step_other _ (Bool.not_ne_self who)]
    have hless := Edit.left_step h s (e who) ((interleave h s w e (List.replicate n who)).phase who)
      (interleave h s w e (List.replicate n who)).world
    exact ⟨halong.step, by omega, hidle⟩

/-- Once one process has taken three steps, it has come to its end, and the other begins where it has left. -/
theorem interleave_apart (h : Host σ α) (s : Settings) (w : World) (e : Bool → Edit) (who : Bool) (rest : List Bool) :
    (interleave h s w e (who :: who :: who :: rest)).phase who = .ended ((e who).command h s w).1 ∧
      Along h s (e !who) ((e who).command h s w).2 ((interleave h s w e (who :: who :: who :: rest)).phase !who)
        (interleave h s w e (who :: who :: who :: rest)).world := by
  induction rest using List.reverseRecOn with
  | nil =>
    obtain ⟨halong, hleft, hidle⟩ := interleave_alone h s w e who 3
    obtain ⟨reply, hended⟩ := Phase.left_eq_zero (Nat.le_zero.1 hleft)
    have hthree : List.replicate 3 who = [who, who, who] := rfl
    rw [hthree] at halong hended hidle
    rw [hended] at halong
    obtain ⟨rfl, hworld⟩ := halong.of_ended
    rw [hended, hidle, hworld]
    exact ⟨rfl, .idle⟩
  | append_singleton rest a ih =>
    obtain ⟨hended, halong⟩ := ih
    have hsplit : who :: who :: who :: (rest ++ [a]) = (who :: who :: who :: rest) ++ [a] := rfl
    rw [hsplit, interleave_concat]
    refine ⟨Pair.ended_step hended a, ?_⟩
    by_cases ha : a = who
    · rw [ha, Pair.step_of_ended hended]
      exact halong
    · obtain rfl := Bool.eq_not_of_ne ha
      rw [Pair.phase_step_same]
      exact halong.step

/-! ### At the same time -/

/-- What an edit does to a store in memory leaves all names alone but its own. -/
def Edit.subject? : Edit → Option String
  | .define name .. => some name
  | .delete name => some (bareName name)
  | .load .. => none

theorem Edit.perform_other {registry : Registry (Provider σ)} {e : Edit} {clock : Clock} {store next : Store}
    {name other : String} (hstore : store.Named) (hname : e.subject? = some name) (hne : other ≠ name)
    (hperform : e.perform registry clock store = .ok next) : next.get? (.text other) = store.get? (.text other) := by
  unfold perform at hperform
  split at hperform
  next => cases hperform
  next os hos =>
    cases e with
    | define =>
      cases hname
      obtain ⟨provider, spec, -, -, rfl⟩ := operations_define_eq_ok hos
      obtain ⟨after, later, hafter, hnil⟩ := Operation.applyAll_cons_eq_ok hperform
      cases hnil
      obtain ⟨d, hdefine⟩ := Operation.apply_define_eq_ok hafter
      obtain ⟨rfl, rfl, -⟩ := Store.enter_of_define rfl hdefine
      exact hstore.get?_enter_of_ne hne
    | delete =>
      cases hname
      cases hos
      cases hperform
      exact hstore.get?_delete_of_ne fun heq => hne (Key.text.inj heq).symm
    | load => cases hname

/-- A process that works with the store that was there at first. -/
inductive Pending (h : Host σ α) (s : Settings) (initial : Store) (e : Edit) : Phase σ → Prop
  | loaded {notices : List Notice} : Pending h s initial e (.loaded ⟨h.providers s, initial, h.archive s⟩ notices)
  | changed {notices : List Notice} {clock clock' : Clock} {store : Store} {line : String}
    (hchange : e.change ⟨h.providers s, initial, h.archive s⟩ clock = (.ok (store, line), clock')) :
    Pending h s initial e (.changed ⟨h.providers s, initial, h.archive s⟩ store line notices)

theorem Pending.status? {e : Edit} {phase : Phase σ} (hpending : Pending h s initial e phase) :
    phase.status? = none := by
  cases hpending <;> rfl

/-- The archive holds what the edit makes of the store that was there at first. -/
def Saved (h : Host σ α) (s : Settings) (initial : Store) (e : Edit) (w : World) : Prop :=
  ∃ clock store kept, e.perform (h.providers s) clock initial = .ok store ∧
    (h.archive s).Holds w.files kept ∧ kept.Mirrors store

/-- A process that loads finds the store that is there. -/
theorem Edit.step_idle (hloads : h.Loads s) {e : Edit} (hholds : (h.archive s).Holds w.files initial)
    (hstatus : ∀ reply, (e.step h s .idle w).1 = .ended reply → reply.ending.status = 0) :
    Pending h s initial e (e.step h s .idle w).1 ∧
      (h.archive s).Holds (e.step h s .idle w).2.files initial := by
  simp only [step] at *
  split at hstatus
  next hproper =>
    rw [if_pos hproper]
    rcases desk_cases h s w.files with ⟨f, notices, after, hdesk, -, hown⟩ |
      ⟨store, more, notices, locked, hdesk, hlock, hcontents⟩
    · rw [hdesk] at hstatus
      exact absurd (hstatus _ rfl) (status_ofFault (hown hloads))
    · rw [hdesk]
      cases hholds.contents.symm.trans hcontents
      exact ⟨.loaded, (Archive.untouched_lock hlock).holds hholds⟩
  next => exact absurd (hstatus _ rfl) Nat.one_ne_zero

/-- A process that has loaded either changes its store and nothing else, or saves it. -/
theorem Pending.step {e : Edit} {phase : Phase σ} (hpending : Pending h s initial e phase) (hinitial : initial.Named)
    (hstatus : ∀ reply, (e.step h s phase w).1 = .ended reply → reply.ending.status = 0) :
    (Pending h s initial e (e.step h s phase w).1 ∧ (e.step h s phase w).2.files = w.files) ∨
      (∃ d store line notices, phase = .changed d store line notices) ∧
        (∃ reply, (e.step h s phase w).1 = .ended reply) ∧ Saved h s initial e (e.step h s phase w).2 := by
  cases hpending with
  | loaded =>
    simp only [Edit.step] at *
    split at hstatus
    next f clock hchange => exact absurd (hstatus _ rfl) (status_ofFault (Edit.change_eq_error hchange))
    next store line clock hchange => exact .inl ⟨.changed hchange, rfl⟩
  | @changed notices clock clock' store line hchange =>
    refine .inr ⟨⟨_, _, _, _, rfl⟩, ⟨_, rfl⟩, ?_⟩
    have hkeep := hstatus _ rfl
    obtain ⟨os, hos, happly, -⟩ := Edit.change_eq_ok hchange
    have hnamed := Operation.named_applyAll hinitial (Edit.textual_operations hos) happly
    simp only [Edit.step, keep] at *
    split at hkeep
    next => exact absurd hkeep Nat.one_ne_zero
    next files hsave =>
      obtain ⟨kept, hkept, hmirrors, -⟩ := Archive.holds_save hnamed hsave
      refine ⟨clock, store, kept, ?_, hkept, hmirrors⟩
      rw [Edit.perform, hos]
      exact happly

/-- Two processes of which neither has saved before the other has loaded, after the steps of a schedule. -/
inductive Overlap (h : Host σ α) (s : Settings) (w : World) (initial : Store) (e : Bool → Edit)
    (schedule : List Bool) (p : Pair σ) : Prop
  | early (hholds : (h.archive s).Holds p.world.files initial)
    (hphase : ∀ who, (p.phase who = .idle ∧ who ∉ schedule) ∨ Pending h s initial (e who) (p.phase who))
  | late (last : Bool) (hpending : Pending h s initial (e last) (p.phase last))
    (hother : ∃ reply, p.phase (!last) = .ended reply)
  | closed {last : Bool} {before rest : List Bool} (hschedule : schedule = before ++ last :: rest)
    (hlast : Pending h s initial (e last) ((interleave h s w e before).phase last))
    (hother : ∃ reply, (interleave h s w e before).phase (!last) = .ended reply)
    (hended : ∀ who, ∃ reply, p.phase who = .ended reply) (hsaved : Saved h s initial (e last) p.world)

/-- A process that has changed its store, and was alone so far, takes its third step next. -/
theorem three_steps_of_changed {d : Desk σ} {store : Store} {line : String} {notices : List Notice}
    (halone : ∀ a ∈ schedule, a = who)
    (hchanged : (interleave h s w e schedule).phase who = .changed d store line notices) :
    ∃ rest, schedule ++ [who] = who :: who :: who :: rest := by
  match schedule with
  | [] => cases hchanged
  | [a] =>
    obtain rfl := halone a (List.mem_singleton_self a)
    rw [← List.nil_append [a], interleave_concat, Pair.phase_step_same] at hchanged
    change ((e a).step h s .idle w).1 = _ at hchanged
    simp only [Edit.step] at hchanged
    split at hchanged
    next => split at hchanged <;> cases hchanged
    next => cases hchanged
  | a :: b :: rest =>
    obtain ⟨rfl, hrest⟩ := List.forall_mem_cons.1 halone
    obtain ⟨rfl, hrest⟩ := List.forall_mem_cons.1 hrest
    cases rest with
    | nil => exact ⟨[], rfl⟩
    | cons c rest =>
      obtain ⟨rfl, -⟩ := List.forall_mem_cons.1 hrest
      exact ⟨rest ++ [c], rfl⟩

/-- Before either has saved, a process loads what was there at first, changes it, or is the first to save,
which it cannot be before the other has loaded unless it was alone. -/
theorem Overlap.step_early (hloads : h.Loads s) (hinitial : initial.Named)
    (hholds : (h.archive s).Holds (interleave h s w e schedule).world.files initial)
    (hphase : ∀ who, ((interleave h s w e schedule).phase who = .idle ∧ who ∉ schedule) ∨
      Pending h s initial (e who) ((interleave h s w e schedule).phase who))
    (hstatus : ∀ reply, ((e who).step h s ((interleave h s w e schedule).phase who)
      (interleave h s w e schedule).world).1 = .ended reply → reply.ending.status = 0)
    (hapart : ∀ a rest, schedule ++ [who] ≠ a :: a :: a :: rest) :
    Overlap h s w initial e (schedule ++ [who]) ((interleave h s w e schedule).step h s e who) := by
  have hnext : Pending h s initial (e who) ((e who).step h s ((interleave h s w e schedule).phase who)
      (interleave h s w e schedule).world).1 →
      ∀ a, (((interleave h s w e schedule).step h s e who).phase a = .idle ∧ a ∉ schedule ++ [who]) ∨
        Pending h s initial (e a) (((interleave h s w e schedule).step h s e who).phase a) := by
    intro hpending a
    by_cases ha : a = who
    · rw [ha, Pair.phase_step_same]
      exact .inr hpending
    · rw [Pair.phase_step_other _ ha]
      exact (hphase a).imp_left fun h => ⟨h.1, by simp [h.2, ha]⟩
  rcases hphase who with ⟨hidle, -⟩ | hpending
  · rw [hidle] at hstatus hnext
    obtain ⟨hloaded, hfiles⟩ := Edit.step_idle hloads hholds hstatus
    refine .early ?_ (hnext hloaded)
    rw [Pair.step, hidle]
    exact hfiles
  · rcases hpending.step hinitial hstatus with ⟨hchanged, hfiles⟩ | ⟨⟨d, store, line, notices, hchanged⟩, hended, -⟩
    · refine .early ?_ (hnext hchanged)
      rw [Pair.step, hfiles]
      exact hholds
    · rcases hphase (!who) with ⟨-, habsent⟩ | hother
      · -- The process was alone so far, and comes to its end before the other takes a step.
        have halone : ∀ a ∈ schedule, a = who := by
          intro a ha
          by_contra hne
          exact habsent (Bool.eq_not_of_ne hne ▸ ha)
        obtain ⟨rest, hrest⟩ := three_steps_of_changed halone hchanged
        exact absurd hrest (hapart who rest)
      · refine .late (!who) ?_ ?_
        · rw [Pair.phase_step_other _ (Bool.not_ne_self who)]
          exact hother
        · rw [Bool.not_not, Pair.phase_step_same]
          exact hended

theorem Overlap.step_late {last : Bool} (hinitial : initial.Named)
    (hpending : Pending h s initial (e last) ((interleave h s w e schedule).phase last))
    (hother : ∃ reply, (interleave h s w e schedule).phase (!last) = .ended reply)
    (hstatus : ∀ reply, ((e who).step h s ((interleave h s w e schedule).phase who)
      (interleave h s w e schedule).world).1 = .ended reply → reply.ending.status = 0) :
    Overlap h s w initial e (schedule ++ [who]) ((interleave h s w e schedule).step h s e who) := by
  obtain ⟨reply, hreply⟩ := hother
  by_cases hlast : who = last
  · subst hlast
    rcases hpending.step hinitial hstatus with ⟨hnext, -⟩ | ⟨-, ⟨told, htold⟩, hsaved⟩
    · refine .late who ?_ ⟨reply, Pair.ended_step hreply who⟩
      rw [Pair.phase_step_same]
      exact hnext
    · refine .closed rfl hpending ⟨reply, hreply⟩ (fun a => ?_) hsaved
      by_cases ha : a = who
      · exact ⟨told, by rw [ha, Pair.phase_step_same, htold]⟩
      · obtain rfl := Bool.eq_not_of_ne ha
        exact ⟨reply, Pair.ended_step hreply who⟩
  · obtain rfl := Bool.eq_not_of_ne hlast
    rw [Pair.step_of_ended hreply]
    exact .late last hpending ⟨reply, hreply⟩

theorem Overlap.step (hloads : h.Loads s) (hinitial : initial.Named)
    (hoverlap : Overlap h s w initial e schedule (interleave h s w e schedule)) (who : Bool)
    (hstatus : ∀ a reply, (interleave h s w e (schedule ++ [who])).phase a = .ended reply → reply.ending.status = 0)
    (hapart : ∀ a rest, schedule ++ [who] ≠ a :: a :: a :: rest) :
    Overlap h s w initial e (schedule ++ [who]) (interleave h s w e (schedule ++ [who])) := by
  rw [interleave_concat] at *
  have hwho : ∀ reply, ((e who).step h s ((interleave h s w e schedule).phase who)
      (interleave h s w e schedule).world).1 = .ended reply → reply.ending.status = 0 :=
    fun reply hreply => hstatus who reply ((Pair.phase_step_same _ _).trans hreply)
  cases hoverlap with
  | early hholds hphase => exact step_early hloads hinitial hholds hphase hwho hapart
  | late last hpending hother => exact step_late hinitial hpending hother hwho
  | @closed last before rest hschedule hlast hother hended hsaved =>
    obtain ⟨reply, hreply⟩ := hended who
    have hlonger : schedule ++ [who] = before ++ last :: (rest ++ [who]) := by
      rw [hschedule, List.append_assoc, List.cons_append]
    rw [Pair.step_of_ended hreply]
    exact .closed hlonger hlast hother hended hsaved

theorem overlap_interleave (hloads : h.Loads s) (hinitial : (h.archive s).Holds w.files initial)
    (hstatus : ∀ a reply, (interleave h s w e schedule).phase a = .ended reply → reply.ending.status = 0)
    (hapart : ∀ a rest, schedule ≠ a :: a :: a :: rest) :
    Overlap h s w initial e schedule (interleave h s w e schedule) := by
  induction schedule using List.reverseRecOn with
  | nil => exact .early hinitial fun who => .inl ⟨rfl, List.not_mem_nil⟩
  | append_singleton schedule who ih =>
    refine Overlap.step hloads hinitial.settled.toNamed (ih (fun a reply hended => ?_) fun a rest hschedule => ?_) who
      hstatus hapart
    · refine hstatus a reply ?_
      rw [interleave_concat, Pair.ended_step hended]
    · refine hapart a (rest ++ [who]) ?_
      rw [hschedule]
      rfl

/-- When both have come to their ends, one of them was the last to save. -/
theorem Overlap.exists_last (hoverlap : Overlap h s w initial e schedule p)
    (hended : ∀ who, ∃ reply, p.phase who = .ended reply) :
    ∃ last before rest, schedule = before ++ last :: rest ∧
      Pending h s initial (e last) ((interleave h s w e before).phase last) ∧
      (∃ reply, (interleave h s w e before).phase (!last) = .ended reply) ∧
      Saved h s initial (e last) p.world := by
  cases hoverlap with
  | early _ hphase =>
    obtain ⟨reply, hreply⟩ := hended true
    rcases hphase true with ⟨hidle, -⟩ | hpending
    · rw [hreply] at hidle
      cases hidle
    · rw [hreply] at hpending
      cases hpending
  | late last hpending _ =>
    obtain ⟨reply, hreply⟩ := hended last
    rw [hreply] at hpending
    cases hpending
  | closed hschedule hlast hother _ hsaved => exact ⟨_, _, _, hschedule, hlast, hother, hsaved⟩

/-! ### Without providers -/

/-- A process whose providers cannot be loaded comes to its end before it does anything. -/
theorem Edit.step_of_not_loads (hloads : ¬h.Loads s) (e : Edit) {phase : Phase σ}
    (hphase : phase = .idle ∨ ∃ reply, phase = .ended reply) (w : World) :
    (∃ reply, (e.step h s phase w).1 = .ended reply) ∧ (e.step h s phase w).2 = w := by
  rcases hphase with rfl | ⟨reply, rfl⟩
  · obtain ⟨f, notices, hdesk⟩ := desk_of_not_loads hloads w.files
    simp only [step, hdesk]
    split
    · exact ⟨⟨_, rfl⟩, rfl⟩
    · exact ⟨⟨_, rfl⟩, rfl⟩
  · exact ⟨⟨reply, rfl⟩, rfl⟩

theorem interleave_of_not_loads (hloads : ¬h.Loads s) (w : World) (e : Bool → Edit) (schedule : List Bool) :
    (∀ who, (interleave h s w e schedule).phase who = .idle ∨
      ∃ reply, (interleave h s w e schedule).phase who = .ended reply) ∧
      (interleave h s w e schedule).world = w := by
  induction schedule using List.reverseRecOn with
  | nil => exact ⟨fun _ => .inl rfl, rfl⟩
  | append_singleton schedule who ih =>
    obtain ⟨hphase, hworld⟩ := ih
    obtain ⟨hended, hsame⟩ :=
      (e who).step_of_not_loads hloads (hphase who) (interleave h s w e schedule).world
    rw [interleave_concat]
    refine ⟨fun a => ?_, hsame.trans hworld⟩
    by_cases ha : a = who
    · rw [ha, Pair.phase_step_same]
      exact .inr hended
    · rw [Pair.phase_step_other _ ha]
      exact hphase a

/-- Two edits of different names that both succeed, in whatever order their steps come. If one of them has
taken its three steps before the other takes one, the world is as it is after one command and then the
other. If not, the archive has what the last of them to save has made of the store that was there at first;
under the name that the other is about there is what was there at first. Where the providers cannot be loaded
and a process can end with zero nevertheless, nothing at all has changed. -/
theorem interleave_edits (h : Host σ α) (s : Settings) (w : World) (hkept : (h.archive s).Kept w.files)
    (e : Bool → Edit) (name : Bool → String) (hname : ∀ who, (e who).subject? = some (name who))
    (hne : name false ≠ name true) (schedule : List Bool)
    (hdone : ∀ who, ((interleave h s w e schedule).phase who).status? = some 0) :
    (∀ who rest, schedule = who :: who :: who :: rest →
      ((e who).run h s w).1.ending.status = 0 ∧
        ((e !who).run h s ((e who).run h s w).2).1.ending.status = 0 ∧
        (interleave h s w e schedule).world = ((e !who).run h s ((e who).run h s w).2).2) ∧
      (h.Loads s → (∀ who rest, schedule ≠ who :: who :: who :: rest) →
        ∃ initial last before rest, (h.archive s).contents w.files = .ok (initial, []) ∧
          schedule = before ++ last :: rest ∧
          ((interleave h s w e before).phase (!last)).status?.isSome = true ∧
          ((interleave h s w e before).phase last).status? = none ∧
          ∃ clock store kept, (e last).perform (h.providers s) clock initial = .ok store ∧
            (h.archive s).contents (interleave h s w e schedule).world.files = .ok (kept, []) ∧
            kept.Mirrors store ∧
            Option.Rel Definition.Mirrors (kept.get? (.text (name !last))) (initial.get? (.text (name !last)))) ∧
      (¬h.Loads s → (interleave h s w e schedule).world = w) := by
  refine ⟨?_, ?_, fun hloads => (interleave_of_not_loads hloads w e schedule).2⟩
  · rintro who rest rfl
    obtain ⟨hended, halong⟩ := interleave_apart h s w e who rest
    obtain ⟨reply, hreply, hstatus⟩ := Phase.of_status? (hdone who)
    obtain ⟨reply', hreply', hstatus'⟩ := Phase.of_status? (hdone !who)
    rw [hreply'] at halong
    obtain ⟨rfl, hworld⟩ := halong.of_ended
    cases hended.symm.trans hreply
    exact ⟨hstatus, hstatus', hworld⟩
  · intro hloads hapart
    obtain ⟨initial, hinitial⟩ := hkept.holds
    have hstatus : ∀ a reply, (interleave h s w e schedule).phase a = .ended reply → reply.ending.status = 0 := by
      intro a reply hreply
      obtain ⟨told, htold, hprinted⟩ := Phase.of_status? (hdone a)
      cases htold.symm.trans hreply
      exact status_printed hprinted
    have hended : ∀ who, ∃ reply, (interleave h s w e schedule).phase who = .ended reply := by
      intro who
      obtain ⟨reply, hreply, -⟩ := Phase.of_status? (hdone who)
      exact ⟨reply, hreply⟩
    obtain ⟨last, before, rest, hschedule, hlast, ⟨reply, hother⟩, hsaved⟩ :=
      (overlap_interleave hloads hinitial hstatus hapart).exists_last hended
    obtain ⟨clock, store, kept, hperform, hholds, hmirrors⟩ := hsaved
    have hdifferent : name (!last) ≠ name last := by
      cases last with
      | false => exact hne.symm
      | true => exact hne
    have hsame := Edit.perform_other hinitial.settled.toNamed (hname last) hdifferent hperform
    have hrel := Mapping.Agree.get? hmirrors (.text (name !last))
    refine ⟨initial, last, before, rest, hinitial.contents, hschedule, ?_, hlast.status?, clock, store, kept, hperform,
      hholds.contents, hmirrors, ?_⟩
    · rw [hother]
      rfl
    · rw [← hsame]
      exact hrel

/-- A world with an archive that a store without definitions was saved to. -/
def savedWorld : World := ⟨((listedHost.archive listedSettings).save .empty .empty).2, ⟨fun _ => .epoch, 0⟩⟩

theorem kept_savedWorld : (listedHost.archive listedSettings).Kept savedWorld.files :=
  .inr ⟨_, .empty, .empty, _, rfl, rfl⟩

/-- One process defines letters, the other words. -/
def lettersAndWords (who : Bool) : Edit := .define (if who then "words" else "letters") (some "list") none []

/-- The two processes after the steps of a schedule. -/
def defineBoth (schedule : List Bool) : Pair Nat :=
  interleave listedHost listedSettings savedWorld lettersAndWords schedule

theorem status?_together :
    ∀ who, ((defineBoth [false, true, false, true, false, true]).phase who).status? = some 0 := by
  decide +kernel

theorem status?_apart :
    ∀ who, ((defineBoth [false, false, false, true, true, true]).phase who).status? = some 0 := by
  decide +kernel

/-- One after the other, or at the same time. -/
theorem interleave_edits_lettersAndWords :
    (defineBoth [false, false, false, true, true, true]).world =
        ((lettersAndWords true).run listedHost listedSettings
          ((lettersAndWords false).run listedHost listedSettings savedWorld).2).2 ∧
      ∃ initial last clock store kept,
        (listedHost.archive listedSettings).contents savedWorld.files = .ok (initial, []) ∧
        (lettersAndWords last).perform (listedHost.providers listedSettings) clock initial = .ok store ∧
        (listedHost.archive listedSettings).contents (defineBoth [false, true, false, true, false, true]).world.files =
          .ok (kept, []) ∧
        kept.Mirrors store := by
  have hname : ∀ who, (lettersAndWords who).subject? = some (if who then "words" else "letters") := fun _ => rfl
  have hapart := interleave_edits listedHost listedSettings savedWorld kept_savedWorld lettersAndWords _ hname
    (by decide) [false, false, false, true, true, true] status?_apart
  have htogether := interleave_edits listedHost listedSettings savedWorld kept_savedWorld lettersAndWords _ hname
    (by decide) [false, true, false, true, false, true] status?_together
  obtain ⟨initial, last, -, -, hinitial, -, -, -, clock, store, kept, hperform, hkept, hmirrors, -⟩ :=
    htogether.2.1 ⟨_, _, rfl⟩ fun who rest hsame => by cases hsame
  exact ⟨(hapart.1 false _ rfl).2.2, initial, last, clock, store, kept, hinitial, hperform, hkept, hmirrors⟩

/-- The names that a new process finds. -/
def namesIn (w : World) : Option (List String) :=
  match (listedHost.archive listedSettings).contents w.files with
  | .ok (store, _) => some store.names
  | .error _ => none

/-- Both succeed, and yet there are no letters, though there are both after one command and then the other. -/
theorem letters_are_lost :
    (listedHost.archive listedSettings).Kept savedWorld.files ∧
      (∀ who, ((defineBoth [false, true, false, true, false, true]).phase who).status? = some 0) ∧
      ∀ who, ∃ found expected, namesIn (defineBoth [false, true, false, true, false, true]).world = some found ∧
        namesIn ((lettersAndWords !who).run listedHost listedSettings
          ((lettersAndWords who).run listedHost listedSettings savedWorld).2).2 = some expected ∧
        ¬found.Perm expected := by
  have hfound : namesIn (defineBoth [false, true, false, true, false, true]).world = some ["words"] := by
    decide +kernel
  refine ⟨kept_savedWorld, status?_together, fun who => ?_⟩
  cases who with
  | false => exact ⟨_, ["letters", "words"], hfound, by decide +kernel, by decide⟩
  | true => exact ⟨_, ["words", "letters"], hfound, by decide +kernel, by decide⟩

end Foreach.Cli

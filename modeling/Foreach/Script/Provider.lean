import Foreach.Context.Change
import Foreach.Provider.Basic

/-!
Scripted providers: sequences that are written down step by step, for rehearsing a batch.

A script either yields an item, changes the context or fails at each step. Its mode says what kind of
sequence reads it: one that cleans up behind itself, one that cannot be closed, or one that runs its
closing steps whenever it is closed.
-/

namespace Foreach.Script

/-- One step of a script. -/
inductive Step where
  | yield (value vars : Value)
  /-- An item with the spec as its only variable. -/
  | yieldSpec
  /-- An item with the state of the context as its variables. -/
  | yieldContext
  | yieldBare (value : Value)
  | raise (f : Fault)
  | change (c : Context.Change)

/-- What kind of sequence a script makes. -/
inductive Mode where
  /-- Runs the closing steps once: when the script ends or fails, or when it is closed part of the way. -/
  | generator
  /-- Cannot be closed, and goes on after a failure. -/
  | iterator
  /-- Goes on after a failure, and runs the closing steps each time it is closed. -/
  | closable
  /-- Refuses to open a sequence. -/
  | refuse
  /-- Gives nothing in place of a sequence. -/
  | nothing
  deriving DecidableEq

/-- A provider's script. -/
structure Provided where
  id : String
  type : String
  mode : Mode
  steps : List Step
  closing : List Step

/-- One reading of a script. -/
structure Reading where
  rest : List Step
  entered : Bool
  done : Bool

/-- How often a script has yielded, and how often its closing steps were begun. -/
structure Tally where
  pulled : Nat
  closed : Nat

/-- All readings so far, and a tally for each script. -/
structure Stage where
  readings : List Reading
  tallies : List Tally

namespace Stage

/-- A stage for a number of scripts, none of them read yet. -/
def ofScripts (count : Nat) : Stage := ⟨[], List.replicate count ⟨0, 0⟩⟩

def countPull (s : Stage) (script : Nat) : Stage :=
  { s with tallies := s.tallies.modify script fun t => { t with pulled := t.pulled + 1 } }

def countClose (s : Stage) (script : Nat) : Stage :=
  { s with tallies := s.tallies.modify script fun t => { t with closed := t.closed + 1 } }

def setReading (s : Stage) (number : Nat) (r : Reading) : Stage :=
  { s with readings := s.readings.set number r }

end Stage

/-- The item of a step that yields one. -/
def Step.item? (spec : Mapping) (c : Context) : Step → Option Item
  | .yield value vars => some (.entry value vars)
  | .yieldSpec => some (.entry .null (.record [("spec", .map spec)]))
  | .yieldContext => some (.entry .null c.state)
  | .yieldBare value => some (.bare value)
  | .raise _ => none
  | .change _ => none

/-- What a step that yields nothing does to the context. -/
def Step.act (c : Context) : Step → Except Fault Context
  | .raise f => .error f
  | .change ch => c.change ch
  | _ => .ok c

/-- Steps up to the next item: the item, the end or the failure met, the steps left, and the context. -/
def play (spec : Mapping) (c : Context) : List Step → Except Fault (Option Item) × List Step × Context
  | [] => (.ok none, [], c)
  | step :: rest =>
    match step.item? spec c with
    | some item => (.ok (some item), rest, c)
    | none =>
      match step.act c with
      | .error f => (.error f, rest, c)
      | .ok c => play spec c rest

/-- Closing steps up to the first failure. -/
def playClosing (c : Context) : List Step → Except Fault Unit × Context
  | [] => (.ok (), c)
  | step :: rest =>
    match step.act c with
    | .error f => (.error f, c)
    | .ok c => playClosing c rest

/-- Runs the closing steps of a script. -/
def runClosing (p : Provided) (script : Nat) : Activity Stage Unit := fun s =>
  let (result, c) := playClosing s.context p.closing
  (result, ⟨c, s.state.countClose script⟩)

/-- A pull that gave no item; a sequence that cleans up does so now, and a failure in that takes the
place of the failure under way. -/
def conclude (p : Provided) (script : Nat) (result : Except Fault (Option Item)) :
    Activity Stage (Option Item) := fun s =>
  if p.mode = .generator then
    match runClosing p script s with
    | (.ok (), s) => (result.map fun _ => none, s)
    | (.error f, s) => (.error f, s)
  else (result.map fun _ => none, s)

/-- Pulls the reading with this number. -/
def pull (p : Provided) (script : Nat) (spec : Mapping) (number : Nat) :
    Activity Stage (Option Item) := fun s =>
  match s.state.readings[number]? with
  | none => (.ok none, s)
  | some r =>
    if r.done then (.ok none, s)
    else
      let (result, rest, c) := play spec s.context r.rest
      match result with
      | .ok (some item) =>
        (.ok (some item), ⟨c, (s.state.setReading number ⟨rest, true, false⟩).countPull script⟩)
      | result =>
        let done := p.mode = .generator
        conclude p script result ⟨c, s.state.setReading number ⟨rest, true, done⟩⟩

/-- Closes the reading with this number. -/
def close (p : Provided) (script : Nat) (number : Nat) : Activity Stage Unit := fun s =>
  if p.mode = .generator then
    match s.state.readings[number]? with
    | none => (.ok (), s)
    | some r =>
      let s : Surroundings Stage :=
        { s with state := s.state.setReading number { r with done := true } }
      if r.entered && !r.done then runClosing p script s else (.ok (), s)
  else runClosing p script s

/-- The sequence that reads a script under this number. -/
def source (p : Provided) (script : Nat) (spec : Mapping) (number : Nat) : Source Stage where
  pull := pull p script spec number
  close? := if p.mode = .iterator then none else some (close p script number)

/-- Begins a reading of a script, or does what its mode says instead. -/
def generate (p : Provided) (script : Nat) (spec : Mapping) : Activity Stage (Option (Source Stage)) :=
  fun s =>
    match p.mode with
    | .refuse => (.error (.badValue "refused"), s)
    | .nothing => (.ok none, s)
    | _ =>
      let number := s.state.readings.length
      let readings := s.state.readings ++ [⟨p.steps, false, false⟩]
      (.ok (some (source p script spec number)), { s with state := { s.state with readings } })

/-- The provider with this script, the script's number being its serial. -/
def provider (p : Provided) (script : Nat) : Provider Stage where
  serial := script
  type := p.type
  description := p.id
  options := []
  generate := generate p script

theorem play_length {spec : Mapping} {c d : Context} {steps rest : List Step} {item : Item}
    (h : play spec c steps = (.ok (some item), rest, d)) : rest.length < steps.length := by
  induction steps generalizing c with
  | nil => simp [play] at h
  | cons step steps ih =>
    unfold play at h
    split at h
    next => simp_all
    next =>
      split at h
      next => simp at h
      next => exact Nat.lt_succ_of_lt (ih h)

/-- The steps that a reading has left. -/
def left (number : Nat) (s : Stage) : Nat := (s.readings[number]?.map (·.rest.length)).getD 0

theorem pull_left {p : Provided} {script number : Nat} {spec : Mapping}
    {before after : Surroundings Stage} {item : Item}
    (h : pull p script spec number before = (.ok (some item), after)) :
    left number after.state < left number before.state := by
  unfold pull at h
  split at h
  next => simp at h
  next r hr =>
    split at h
    next => simp at h
    next =>
      generalize hplay : play spec before.context r.rest = played at h
      obtain ⟨result, rest, c⟩ := played
      dsimp only at h
      split at h
      next =>
        simp only [Prod.mk.injEq, Except.ok.injEq, Option.some.injEq] at h
        obtain ⟨rfl, rfl⟩ := h
        have hlength := play_length hplay
        have hnumber : number < before.state.readings.length :=
          (List.getElem?_eq_some_iff.1 hr).1
        simp_all [left, Stage.setReading, Stage.countPull]
      next =>
        exfalso
        unfold conclude at h
        split at h
        next =>
          split at h
          next => cases result <;> simp_all [Except.map]
          next => simp at h
        next => cases result <;> simp_all [Except.map]

/-- A script is read to its end in finitely many pulls. -/
theorem provider_finite (p : Provided) (script : Nat) : (provider p script).Finite := by
  intro spec before source after h
  change generate p script spec before = _ at h
  unfold generate at h
  split at h
  next => simp at h
  next => simp at h
  next =>
    simp only [Prod.mk.injEq, Except.ok.injEq, Option.some.injEq] at h
    obtain ⟨rfl, -⟩ := h
    exact ⟨left _, fun _ _ _ hpull => pull_left hpull⟩

end Foreach.Script

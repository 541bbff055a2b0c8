import Foreach.Context.Change
import Foreach.Runner.Basic

/-!
Scripted actions, for rehearsing a batch.
-/

namespace Foreach.Script

/-- What a scripted action does to the context, and for which texts it fails. -/
structure Acted where
  name : String
  effects : List Context.Change
  failures : List (String × Fault)

/-- The context after changes in a row; the changes before a failing one remain. -/
def changes (c : Context) : List Context.Change → Except Fault Unit × Context
  | [] => (.ok (), c)
  | ch :: rest =>
    match c.change ch with
    | .error f => (.error f, c)
    | .ok c => changes c rest

/-- The context with the mark that the action leaves. -/
def mark (c : Context) (text : String) : Context :=
  { c with vars := Mapping.setText c.vars "touched" (.text text) }.addMessage
    (.text "user") (.text text) []

/-- The action with this script. -/
def runner (ρ : Type) (a : Acted) : Runner ρ where
  name := a.name
  invoke text s :=
    match changes s.context a.effects with
    | (.error f, context) => (.error f, { s with context })
    | (.ok (), c) =>
      let s := { s with context := mark c text }
      match a.failures.lookup text with
      | some f => (.error f, s)
      | none => (.ok ⟨text, "<" ++ text ++ ">", 0, []⟩, s)

/-- The only failure of changes in a row is that one of them cannot be followed. -/
theorem changes_eq_error {f : Fault} (effects : List Context.Change) (c : Context)
    (h : (changes c effects).1 = .error f) : f = Context.Change.unfollowable := by
  induction effects generalizing c with
  | nil => cases h
  | cons ch rest ih =>
    unfold changes at h
    cases hchange : c.change ch with
    | ok d =>
      rw [hchange] at h
      exact ih d h
    | error g =>
      rw [hchange] at h
      cases h
      exact Context.change_eq_error hchange

/-- A scripted action is stopped hard only where its script says so. -/
theorem runner_neverStops (ρ : Type) {a : Acted}
    (hordinary : ∀ entry ∈ a.failures, entry.2.isOrdinary = true) : (runner ρ a).NeverStops := by
  intro text s f hf
  unfold runner at hf
  dsimp only at hf
  split at hf
  next g context hchanges =>
    cases hf
    have hunfollowable := changes_eq_error a.effects s.context (congrArg Prod.fst hchanges)
    rw [hunfollowable]
    rfl
  next =>
    split at hf
    next g hlookup =>
      cases hf
      obtain ⟨before, after, hentries, -⟩ := List.lookup_eq_some_iff.1 hlookup
      exact hordinary (text, f) (hentries ▸ List.mem_append_right before List.mem_cons_self)
    next => cases hf

end Foreach.Script

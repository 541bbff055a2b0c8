import Foreach.Context.Activity
import Foreach.Options.Schema

/-!
Providers and the sequences that they open.

A sequence is pulled item by item. What one pull does may depend on the sequence's own state and on the
context, and on nothing else. Where it can be closed, closing it releases what it holds.
-/

namespace Foreach

/-- What a pull can give: an item with its value and variables, or something that is no item. -/
inductive Item where
  | entry (value vars : Value)
  | bare (value : Value)

/-- A sequence of items. -/
structure Source (σ : Type) where
  /-- The next item, or none at the end. -/
  pull : Activity σ (Option Item)
  close? : Option (Activity σ Unit)

/-- Every pull that gives an item leaves fewer to come, as some count of the state shows. -/
def Source.Finite {σ : Type} (source : Source σ) : Prop :=
  ∃ left : σ → Nat, ∀ before item after,
    source.pull before = (.ok (some item), after) → left after.state < left before.state

/-- A maker of item sequences for the definitions of one type. -/
structure Provider (σ : Type) where
  /-- Tells one provider from another. -/
  serial : Nat
  type : String
  description : String
  options : OptionSchema
  /-- Opens the sequence for a spec, or gives nothing at all. -/
  generate : Mapping → Activity σ (Option (Source σ))

namespace Provider

instance {σ : Type} : BEq (Provider σ) := ⟨fun p q => p.serial == q.serial⟩

/-- Every sequence that the provider opens is finite. -/
def Finite {σ : Type} (p : Provider σ) : Prop :=
  ∀ spec before source after, p.generate spec before = (.ok (some source), after) → source.Finite

end Provider

/-- A provider that is known to open finite sequences only. -/
abbrev FiniteProvider (σ : Type) := { p : Provider σ // p.Finite }

instance {σ : Type} : BEq (FiniteProvider σ) := ⟨fun p q => p.1 == q.1⟩

end Foreach

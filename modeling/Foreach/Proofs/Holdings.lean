import Foreach.Holdings
import Foreach.Proofs.Definition.Acceptance
import Foreach.Provider.Listed

/-!
Which store a service works with.

An operation is made on one store, under its number, and who holds another number sees nothing of it. So one
store under two names is always the same, and two stores never come to share a definition. A store that is
given to a service is the one that the service works with if there is a definition in it; if it is empty it
is not, and the two go apart for good.
-/

namespace Foreach

namespace Holdings

variable {σ : Type} {h h' : Holdings σ} {number : Nat}

/-! ### Operations, one after another -/

/-- An operation on registries and stores that are shared, on the ones under these numbers. -/
inductive Step (σ : Type) where
  | register (number : Nat) (type : String) (p : Provider σ) (replace : Bool)
  | unregister (number : Nat) (type : String)
  | define (number : Nat) (clock : Clock) (p : Proposal)
  | delete (number : Nat) (name : Value)
  | deserialize (number : Nat) (document : Value)

/-- The store that an operation is made on. -/
def Step.store? : Step σ → Option Nat
  | .register .. | .unregister .. => none
  | .define number .. | .delete number _ | .deserialize number _ => some number

/-- The operation is made on this store, or on a registry. -/
def Step.concerns (number : Nat) (step : Step σ) : Bool := step.store?.all (· == number)

def step (h : Holdings σ) : Step σ → Holdings σ
  | .register number type p replace => (h.register number type p replace).2
  | .unregister number type => (h.unregister number type).2
  | .define number clock p => (h.define number clock p).2.1
  | .delete number name => (h.delete number name).2
  | .deserialize number document => (h.deserialize number document).2

def run (h : Holdings σ) (steps : List (Step σ)) : Holdings σ := steps.foldl step h

theorem setStore_of_ne (store : Store) {other : Nat} (hne : other ≠ number) :
    (h.setStore number store).stores other = h.stores other := if_neg hne

theorem setStore_self (store : Store) :
    (h.setStore number store).stores number = ⟨(h.stores number).registry, store⟩ := if_pos rfl

/-- A step on a store is other definitions for this store, and nothing else. -/
theorem step_of_store {s : Step σ} (hs : s.store? = some number) : ∃ store, h.step s = h.setStore number store := by
  cases s with
  | register | unregister => cases hs
  | define | delete | deserialize =>
    cases hs
    exact ⟨_, rfl⟩

/-- A step on a registry leaves the stores alone. -/
theorem stores_step_of_none {s : Step σ} (hs : s.store? = none) : (h.step s).stores = h.stores := by
  cases s with
  | register | unregister => rfl
  | define | delete | deserialize => cases hs

/-- Every store stays bound to the registry that it was built on. -/
theorem registry_step (s : Step σ) (number : Nat) :
    ((h.step s).stores number).registry = (h.stores number).registry := by
  cases hs : s.store? with
  | none => rw [stores_step_of_none hs]
  | some target =>
    obtain ⟨store, hstep⟩ := step_of_store (h := h) hs
    rw [hstep]
    by_cases hnumber : number = target
    · rw [hnumber, setStore_self]
    · rw [setStore_of_ne store hnumber]

theorem registry_run (steps : List (Step σ)) (number : Nat) :
    ((h.run steps).stores number).registry = (h.stores number).registry := by
  induction steps generalizing h with
  | nil => rfl
  | cons s steps ih =>
    have hrest : ((h.run (s :: steps)).stores number).registry = ((h.step s).stores number).registry := ih
    rw [hrest, registry_step]

/-! ### What a store depends on -/

/-- The two have the same registries, and the same store under this number. -/
structure Agree (number : Nat) (h h' : Holdings σ) : Prop where
  registries : h.registries = h'.registries
  stores : h.stores number = h'.stores number

theorem Agree.store (hagree : Agree number h h') : h.store number = h'.store number :=
  congrArg BoundStore.store hagree.stores

theorem Agree.accepts (hagree : Agree number h h') : h.accepts number = h'.accepts number := by
  unfold Holdings.accepts
  rw [hagree.registries, hagree.stores]

theorem Agree.setStore (hagree : Agree number h h') (store : Store) :
    Agree number (h.setStore number store) (h'.setStore number store) := by
  refine ⟨hagree.registries, ?_⟩
  rw [setStore_self, setStore_self, hagree.stores]

theorem Agree.setRegistry (hagree : Agree number h h') (n : Nat) (registry : Registry (Provider σ)) :
    Agree number (h.setRegistry n registry) (h'.setRegistry n registry) := by
  refine ⟨?_, hagree.stores⟩
  unfold Holdings.setRegistry
  rw [hagree.registries]

/-- A step on another store makes no difference. -/
theorem Agree.step_other (hagree : Agree number h h') {s : Step σ} (hs : s.concerns number = false) :
    Agree number (h.step s) h' := by
  unfold Step.concerns at hs
  cases hstore : s.store? with
  | none =>
    rw [hstore] at hs
    cases hs
  | some target =>
    have hne : number ≠ target := by
      intro heq
      simp [hstore, heq] at hs
    obtain ⟨store, hstep⟩ := step_of_store (h := h) hstore
    rw [hstep]
    exact ⟨hagree.registries, (setStore_of_ne store hne).trans hagree.stores⟩

/-- A step on this store or on a registry makes the same of both. -/
theorem Agree.step (hagree : Agree number h h') {s : Step σ} (hs : s.concerns number = true) :
    Agree number (h.step s) (h'.step s) := by
  have hstore := hagree.store
  have haccepts := hagree.accepts
  cases s with
  | register n type p replace =>
    simp only [Holdings.step, register, hagree.registries]
    exact hagree.setRegistry n _
  | unregister n type =>
    simp only [Holdings.step, unregister, hagree.registries]
    exact hagree.setRegistry n _
  | define n clock p =>
    obtain rfl : n = number := by simpa [Step.concerns, Step.store?] using hs
    simp only [Holdings.step, define, hstore, haccepts]
    exact hagree.setStore _
  | delete n name =>
    obtain rfl : n = number := by simpa [Step.concerns, Step.store?] using hs
    simp only [Holdings.step, delete, hstore]
    exact hagree.setStore _
  | deserialize n document =>
    obtain rfl : n = number := by simpa [Step.concerns, Step.store?] using hs
    simp only [Holdings.step, deserialize, hstore]
    exact hagree.setStore _

/-- What becomes of a store is what the steps on it and on the registries make of it. -/
theorem Agree.run (hagree : Agree number h h') (steps : List (Step σ)) :
    Agree number (h.run steps) (h'.run (steps.filter (·.concerns number))) := by
  induction steps generalizing h h' with
  | nil => exact hagree
  | cons s steps ih =>
    cases hs : s.concerns number with
    | false =>
      rw [List.filter_cons_of_neg (by simp [hs])]
      exact ih (hagree.step_other hs)
    | true =>
      rw [List.filter_cons_of_pos hs]
      exact ih (hagree.step hs)

/-! ### The store of a service -/

/-- A definition in this store is refused for its type just if the type is not in this registry. -/
def ChecksAgainst (h : Holdings σ) (number registry : Nat) : Prop :=
  ∀ clock p name, (h.define number clock p).1 = .error (.unknownType name) ↔
    ∃ key, Store.keyOf p.type = .ok key ∧ key.display = name ∧ (h.registries registry).hasKey key = false

theorem checksAgainst_registry (h : Holdings σ) (number : Nat) :
    h.ChecksAgainst number (h.stores number).registry := by
  intro clock p name
  exact Store.define_unknownType_iff

/-- What is defined through a service whose store was built on its own registry is defined in the service. -/
theorem service_define {handle : Handle} (hbound : (h.stores handle.store).registry = handle.registry)
    (clock : Clock) (p : Proposal) :
    (h.service handle).define clock p =
      ((h.define handle.store clock p).1, (h.define handle.store clock p).2.1.service handle,
        (h.define handle.store clock p).2.2) := by
  have haccepts : h.accepts handle.store = (h.registries handle.registry).hasKey := by rw [accepts, hbound]
  simp only [Service.define, define, service, haccepts]
  rcases (h.store handle.store).define (h.registries handle.registry).hasKey clock p with ⟨result, made, later⟩
  have hstore : (h.setStore handle.store made).store handle.store = made :=
    congrArg BoundStore.store (setStore_self made)
  have hregistries : (h.setStore handle.store made).registries = h.registries := rfl
  simp only [hstore, hregistries]

theorem openService_of_empty (registry : Nat) (hempty : (h.store number).size = 0) :
    h.openService (some registry) (some number) = (⟨registry, h.unused⟩, (h.newStore registry).2) := by
  simp [openService, hempty, newStore, Option.filter_some]

theorem openService_of_nonempty (registry : Nat) (hsize : (h.store number).size ≠ 0) :
    h.openService (some registry) (some number) = (⟨registry, number⟩, h) := by
  simp [openService, hsize, Option.filter_some]

theorem newStore_self (registry : Nat) : (h.newStore registry).2.stores h.unused = ⟨registry, .empty⟩ := if_pos rfl

theorem agree_newStore (registry : Nat) (hnumber : number < h.unused) :
    Agree number (h.newStore registry).2 h :=
  ⟨rfl, if_neg (Nat.ne_of_lt hnumber)⟩

/-- A service works with the store that it was given just if there was a definition in it. Then nothing new
is made, and whatever operations follow, through the service or not, the service and the store have the same
list, and types are checked against the registry that the store was built on. With an empty store the service
works with a new one, which is built on its own registry, and each of the two goes its own way: no operation
on the one makes any difference to the other. -/
theorem openService_given (h : Holdings σ) (registry : Nat) {given : Nat} (hgiven : given < h.unused) :
    let opened := h.openService (some registry) (some given)
    let own := opened.1.store
    opened.1.registry = registry ∧ (own = given ↔ (h.store given).size ≠ 0) ∧
    ((h.store given).size ≠ 0 → opened.2 = h ∧ ∀ steps : List (Step σ),
      ((opened.2.run steps).service opened.1).store.list = ((opened.2.run steps).store given).list ∧
      (opened.2.run steps).ChecksAgainst own (h.stores given).registry) ∧
    ((h.store given).size = 0 → own = h.unused ∧ opened.2.store own = .empty ∧ ∀ steps : List (Step σ),
      (opened.2.run steps).store given = (h.run (steps.filter (·.concerns given))).store given ∧
      (opened.2.run steps).store own = (opened.2.run (steps.filter (·.concerns own))).store own ∧
      (opened.2.run steps).ChecksAgainst own registry) := by
  intro opened own
  by_cases hempty : (h.store given).size = 0
  · have hopened : opened = (⟨registry, h.unused⟩, (h.newStore registry).2) := openService_of_empty registry hempty
    have hown : own = h.unused := congrArg (·.1.store) hopened
    have hholdings : opened.2 = (h.newStore registry).2 := congrArg (·.2) hopened
    have hbound : opened.2.stores own = ⟨registry, .empty⟩ := by rw [hholdings, hown, newStore_self]
    have hagree : Agree given opened.2 h := hholdings ▸ agree_newStore registry hgiven
    have hne : own ≠ given := hown ▸ (Nat.ne_of_lt hgiven).symm
    refine ⟨congrArg (·.1.registry) hopened, iff_of_false hne (not_not_intro hempty), fun hsize => ?_, fun _ => ?_⟩
    · exact absurd hempty hsize
    · refine ⟨hown, congrArg BoundStore.store hbound, fun steps => ⟨?_, ?_, ?_⟩⟩
      · exact (hagree.run steps).store
      · have hself : Agree own opened.2 opened.2 := ⟨rfl, rfl⟩
        exact (hself.run steps).store
      · have hchecks := checksAgainst_registry (opened.2.run steps) own
        rw [registry_run, hbound] at hchecks
        exact hchecks
  · have hopened : opened = (⟨registry, given⟩, h) := openService_of_nonempty registry hempty
    have hown : own = given := congrArg (·.1.store) hopened
    have hholdings : opened.2 = h := congrArg (·.2) hopened
    refine ⟨congrArg (·.1.registry) hopened, iff_of_true hown hempty, fun _ => ⟨hholdings, fun steps => ?_⟩,
      fun hsize => absurd hsize hempty⟩
    have hlist : ((opened.2.run steps).service opened.1).store = (opened.2.run steps).store given :=
      congrArg (opened.2.run steps).store hown
    refine ⟨congrArg Store.list hlist, ?_⟩
    have hchecks := checksAgainst_registry (opened.2.run steps) own
    rw [registry_run, hown, hholdings] at hchecks
    rw [hown, hholdings]
    exact hchecks

/-- Two registries, of which the second has a provider, and two stores, both built on that one: the first
holds a definition, the second is empty. -/
def lettersHoldings : Holdings Nat where
  registries number := if number = 1 then ⟨[("list", Listed.vacant 0 "list" "Nothing")]⟩ else .empty
  stores number := ⟨1,
    if number = 0 then ⟨[(.text "letters", ⟨"letters", "list", [], none, .epoch, .epoch⟩)]⟩ else .empty⟩
  unused := 2

/-- A definition of numbers in a store. -/
def numbersStep (number : Nat) : Step Nat :=
  .define number ⟨fun _ => .epoch, 0⟩ ⟨.text "numbers", .text "list", .map [], .null⟩

/-- A service whose registry is empty, with the store that holds a definition: what is defined through the
service is in the store. -/
theorem openService_given_letters :
    0 < lettersHoldings.unused ∧ (lettersHoldings.store 0).size ≠ 0 ∧
      ∃ handle after, handle = (lettersHoldings.openService (some 0) (some 0)).1 ∧
        after = lettersHoldings.run [numbersStep handle.store] ∧ handle.store = 0 ∧
        (after.service handle).store.list = (after.store 0).list ∧
        (after.store 0).list.map (·.name) = ["letters", "numbers"] := by
  have hgiven : 0 < lettersHoldings.unused := by decide
  have hsize : (lettersHoldings.store 0).size ≠ 0 := by decide
  obtain ⟨-, hown, hworks, -⟩ := openService_given lettersHoldings 0 hgiven
  obtain ⟨hholdings, hlists⟩ := hworks hsize
  obtain ⟨hlist, -⟩ := hlists [numbersStep 0]
  rw [hholdings] at hlist
  have hstore := hown.2 hsize
  refine ⟨hgiven, hsize, _, _, rfl, rfl, hstore, ?_, ?_⟩
  · rw [hstore]
    exact hlist
  · rw [hstore]
    decide +kernel

/-- With the empty store, what is defined through the service is not in the store. -/
theorem empty_store_is_passed_over :
    let opened := lettersHoldings.openService (some 1) (some 1)
    let after := opened.2.run [numbersStep opened.1.store]
    1 < lettersHoldings.unused ∧ opened.1.store ≠ 1 ∧
      (after.service opened.1).store.list.map (·.name) = ["numbers"] ∧ (after.store 1).list.map (·.name) = [] := by
  decide +kernel

end Holdings
end Foreach

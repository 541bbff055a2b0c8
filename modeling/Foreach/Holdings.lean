import Foreach.Service

/-!
Registries and stores that the parts of a program share.

Each stands under a number, and whoever has the number finds it as it is at the time. A store is bound for
good to the registry that it was built on: that is the one that decides which types it accepts, whichever
service the store is used by.
-/

namespace Foreach

/-- A store, and the number of the registry that it was built on. -/
structure BoundStore where
  registry : Nat
  store : Store

/-- Registries and stores by their numbers. -/
structure Holdings (σ : Type) where
  registries : Nat → Registry (Provider σ)
  stores : Nat → BoundStore
  /-- No number from here on is in use. -/
  unused : Nat

/-- The registry and the store that a service works with. -/
structure Handle where
  registry : Nat
  store : Nat
  deriving DecidableEq, Repr

namespace Holdings

variable {σ : Type}

def empty : Holdings σ := ⟨fun _ => .empty, fun _ => ⟨0, .empty⟩, 0⟩

def store (h : Holdings σ) (number : Nat) : Store := (h.stores number).store

/-- Whether a store accepts a type. -/
def accepts (h : Holdings σ) (number : Nat) : Key → Bool :=
  (h.registries (h.stores number).registry).hasKey

def setRegistry (h : Holdings σ) (number : Nat) (registry : Registry (Provider σ)) : Holdings σ :=
  { h with registries := fun n => if n = number then registry else h.registries n }

def setBound (h : Holdings σ) (number : Nat) (bound : BoundStore) : Holdings σ :=
  { h with stores := fun n => if n = number then bound else h.stores n }

/-- Other definitions for a store, which stays bound to its registry. -/
def setStore (h : Holdings σ) (number : Nat) (store : Store) : Holdings σ :=
  h.setBound number ⟨(h.stores number).registry, store⟩

/-! ### Making registries, stores and services -/

def newRegistry (h : Holdings σ) : Nat × Holdings σ :=
  (h.unused, { h.setRegistry h.unused .empty with unused := h.unused + 1 })

/-- An empty store that is built on a registry. -/
def newStore (h : Holdings σ) (registry : Nat) : Nat × Holdings σ :=
  (h.unused, { h.setBound h.unused ⟨registry, .empty⟩ with unused := h.unused + 1 })

/-- Makes a service. A registry or a store that is not given is made for it, and so is a store for one that
is given but empty, which is passed over. -/
def openService (h : Holdings σ) (registry store : Option Nat) : Handle × Holdings σ :=
  let (registry, h) := registry.elim h.newRegistry fun number => (number, h)
  match store.filter fun number => (h.store number).size != 0 with
  | some number => (⟨registry, number⟩, h)
  | none =>
    let (number, h) := h.newStore registry
    (⟨registry, number⟩, h)

/-- A service as it is at the time. -/
def service (h : Holdings σ) (handle : Handle) : Service σ :=
  ⟨h.registries handle.registry, h.store handle.store⟩

/-! ### Operations -/

def register (h : Holdings σ) (number : Nat) (type : String) (p : Provider σ) (replace : Bool) :
    Except Fault (List Notice) × Holdings σ :=
  let (result, registry) := (h.registries number).register type p replace
  (result, h.setRegistry number registry)

def unregister (h : Holdings σ) (number : Nat) (type : String) : Bool × Holdings σ :=
  let (registry, there) := (h.registries number).unregister type
  (there, h.setRegistry number registry)

def define (h : Holdings σ) (number : Nat) (clock : Clock) (p : Proposal) :
    Except Fault Definition × Holdings σ × Clock :=
  let (result, store, clock) := (h.store number).define (h.accepts number) clock p
  (result, h.setStore number store, clock)

def delete (h : Holdings σ) (number : Nat) (name : Value) : Except Fault Bool × Holdings σ :=
  let (result, store) := (h.store number).remove name
  (result, h.setStore number store)

def deserialize (h : Holdings σ) (number : Nat) (document : Value) :
    Except Fault (List Notice) × Holdings σ :=
  let (result, store) := (h.store number).deserialize document
  (result, h.setStore number store)

end Holdings
end Foreach

import Foreach.Proofs.Definition.Success
import Foreach.Proofs.Holdings
import Foreach.Proofs.Provider.Registry

/-!
Calls that fail.

A call on a store or on a registry fails at one of many points: when a type is looked up, when a spec is
taken over, when a field is checked, when records are gone through. What it leaves behind comes with the
failure, and whichever point it is, nothing has been changed by then. So a conversation goes on as if the
call that failed had not been made: all other answers are the same, and so are the stores and the
registries in the end.
-/

namespace Foreach

/-- A registration fails just if it would replace another provider and must not. -/
theorem Registry.succeeds_register {α : Type} [BEq α] {r : Registry α} {type : String} {p : α} {replace : Bool} :
    Succeeds (r.register type p replace).1 ↔ replace = true ∨ ∀ q, r.get? type = some q → (q == p) = true := by
  unfold Registry.register
  cases r.get? type with
  | none => simp
  | some q => cases hsame : q == p <;> cases replace <;> simp [hsame]

namespace Holdings

variable {σ : Type}

/-! ### Calls and their answers -/

/-- A question to a store. Any value can be asked for as a name. -/
inductive StoreQuery where
  | get (name : Value)
  | require (name : Value)
  | contains (name : Value)
  | size
  | list
  | serialize
  | lines

/-- A question to a registry. -/
inductive RegistryQuery where
  | get (type : String)
  | has (type : String)
  | types
  | items

/-- What can be done with registries and stores that are shared, to the ones under these numbers. A definition
comes with the clock that it is made by, so no call has a say in the time of another. -/
inductive Call (σ : Type) where
  | register (number : Nat) (type : String) (p : Provider σ) (replace : Bool)
  | unregister (number : Nat) (type : String)
  | define (number : Nat) (clock : Clock) (p : Proposal)
  | delete (number : Nat) (name : Value)
  | deserialize (number : Nat) (document : Value)
  | ofStore (number : Nat) (query : StoreQuery)
  | ofRegistry (number : Nat) (query : RegistryQuery)

/-- What comes back from a call that does not fail. -/
inductive Reply (σ : Type) where
  | done (notices : List Notice)
  | truth (b : Bool)
  | count (n : Nat)
  | definition (d : Option Definition)
  | definitions (ds : List Definition)
  | document (v : Value)
  | texts (ts : List String)
  | provider (p : Option (Provider σ))
  | providers (ps : List (String × Provider σ))

def StoreQuery.reply (s : Store) : StoreQuery → Except Fault (Reply σ)
  | .get name => (Store.keyOf name).map fun key => .definition (s.get? key)
  | .require name =>
    match Store.keyOf name with
    | .error f => .error f
    | .ok key => (s.require key).map fun d => .definition (some d)
  | .contains name => (Store.keyOf name).map fun key => .truth (s.contains key)
  | .size => .ok (.count s.size)
  | .list => .ok (.definitions s.list)
  | .serialize => s.serialize.map .document
  | .lines => .ok (.texts s.lines)

def RegistryQuery.reply (r : Registry (Provider σ)) : RegistryQuery → Reply σ
  | .get type => .provider (r.get? type)
  | .has type => .truth (r.has type)
  | .types => .texts r.types
  | .items => .providers r.items

/-- The answer to a call, and what there is after it. -/
def answer (h : Holdings σ) : Call σ → Except Fault (Reply σ) × Holdings σ
  | .register number type p replace =>
    let (result, after) := h.register number type p replace
    (result.map .done, after)
  | .unregister number type =>
    let (there, after) := h.unregister number type
    (.ok (.truth there), after)
  | .define number clock p =>
    let (result, after, _) := h.define number clock p
    (result.map fun d => .definition (some d), after)
  | .delete number name =>
    let (result, after) := h.delete number name
    (result.map .truth, after)
  | .deserialize number document =>
    let (result, after) := h.deserialize number document
    (result.map .done, after)
  | .ofStore number query => (query.reply (h.store number), h)
  | .ofRegistry number query => (.ok (query.reply (h.registries number)), h)

/-- The answers to calls that are made one after another, and what there is after them. -/
def converse (h : Holdings σ) : List (Call σ) → List (Except Fault (Reply σ)) × Holdings σ
  | [] => ([], h)
  | c :: calls =>
    let (result, next) := h.answer c
    let (results, last) := next.converse calls
    (result :: results, last)

/-! ### Which calls fail -/

variable {h : Holdings σ} {c : Call σ} {f : Fault}

/-- A question that has an answer. A name has to be a key, and a definition that is required has to be there;
a store has a document if each definition has one. -/
def StoreQuery.InOrder (s : Store) : StoreQuery → Prop
  | .get name | .contains name => name.toKey?.isSome = true
  | .require name => ∃ key, name.toKey? = some key ∧ s.contains key = true
  | .serialize => ∀ d ∈ s.list, Succeeds d.document
  | .size | .list | .lines => True

/-- A call that can be followed. -/
def Call.InOrder (h : Holdings σ) : Call σ → Prop
  | .register number type p replace =>
    replace = true ∨ ∀ q, (h.registries number).get? type = some q → (q == p) = true
  | .define number _ p => Store.Welcomes (h.accepts number) p
  | .delete _ name => name.toKey?.isSome = true
  | .deserialize _ document => Store.Readable document
  | .ofStore number query => query.InOrder (h.store number)
  | .unregister .. | .ofRegistry .. => True

theorem succeeds_reply {s : Store} {query : StoreQuery} :
    Succeeds (query.reply s : Except Fault (Reply σ)) ↔ query.InOrder s := by
  cases query with
  | get name | contains name => simp [StoreQuery.reply, StoreQuery.InOrder, Store.succeeds_keyOf]
  | require name =>
    simp only [StoreQuery.reply, StoreQuery.InOrder, Store.keyOf]
    cases name.toKey? <;> simp [Store.succeeds_require]
  | serialize => simp [StoreQuery.reply, StoreQuery.InOrder, Store.succeeds_serialize]
  | size | list | lines => simp [StoreQuery.reply, StoreQuery.InOrder]

theorem succeeds_answer : Succeeds (h.answer c).1 ↔ c.InOrder h := by
  cases c with
  | register number type p replace => exact succeeds_map.trans Registry.succeeds_register
  | define number clock p =>
    exact succeeds_map.trans (Store.succeeds_define (h.store number) (h.accepts number) clock p)
  | delete number name => exact succeeds_map.trans Store.succeeds_remove
  | deserialize number document => exact succeeds_map.trans Store.succeeds_deserialize
  | ofStore number query => exact succeeds_reply
  | unregister | ofRegistry => exact iff_of_true (succeeds_ok _) trivial

theorem exists_error_iff : (∃ f, (h.answer c).1 = .error f) ↔ ¬c.InOrder h := by
  rw [← not_succeeds_iff, succeeds_answer]

/-! ### What a call that fails leaves behind -/

/-- To put a store back is no change. -/
theorem setStore_store (h : Holdings σ) (number : Nat) : h.setStore number (h.store number) = h := by
  have hstores : (fun n => if n = number then ⟨(h.stores number).registry, h.store number⟩ else h.stores n) =
      h.stores := by
    funext n
    split
    next heq => rw [heq, store]
    next => rfl
  rw [setStore, setBound, hstores]

theorem setRegistry_registries (h : Holdings σ) (number : Nat) : h.setRegistry number (h.registries number) = h := by
  have hregistries : (fun n => if n = number then h.registries number else h.registries n) = h.registries := by
    funext n
    split
    next heq => rw [heq]
    next => rfl
  rw [setRegistry, hregistries]

theorem register_of_error {number : Nat} {type : String} {p : Provider σ} {replace : Bool}
    (hfail : (h.register number type p replace).1 = .error f) : (h.register number type p replace).2 = h := by
  have hregistry : ((h.registries number).register type p replace).2 = h.registries number :=
    congrArg Prod.snd (Registry.register_of_error hfail)
  simp only [register, hregistry, setRegistry_registries]

theorem define_of_error {number : Nat} {clock : Clock} {p : Proposal}
    (hfail : (h.define number clock p).1 = .error f) : (h.define number clock p).2.1 = h := by
  have hstore : ((h.store number).define (h.accepts number) clock p).2.1 = h.store number :=
    Store.define_of_error hfail
  simp only [define, hstore, setStore_store]

theorem delete_of_error {number : Nat} {name : Value} (hfail : (h.delete number name).1 = .error f) :
    (h.delete number name).2 = h := by
  have hstore : ((h.store number).remove name).2 = h.store number := Store.remove_of_error hfail
  simp only [delete, hstore, setStore_store]

theorem deserialize_of_error {number : Nat} {document : Value} (hfail : (h.deserialize number document).1 = .error f) :
    (h.deserialize number document).2 = h := by
  have hstore : ((h.store number).deserialize document).2 = h.store number :=
    congrArg Prod.snd (Store.deserialize_of_error hfail)
  simp only [deserialize, hstore, setStore_store]

theorem answer_of_error (hfail : (h.answer c).1 = .error f) : h.answer c = (.error f, h) := by
  refine Prod.ext hfail ?_
  cases c with
  | register => exact register_of_error (map_eq_error hfail)
  | define => exact define_of_error (map_eq_error hfail)
  | delete => exact delete_of_error (map_eq_error hfail)
  | deserialize => exact deserialize_of_error (map_eq_error hfail)
  | unregister | ofRegistry => cases hfail
  | ofStore => rfl

/-! ### Conversations -/

theorem converse_cons (h : Holdings σ) (c : Call σ) (calls : List (Call σ)) :
    h.converse (c :: calls) =
      ((h.answer c).1 :: ((h.answer c).2.converse calls).1, ((h.answer c).2.converse calls).2) := rfl

theorem converse_append (h : Holdings σ) (before later : List (Call σ)) :
    h.converse (before ++ later) =
      ((h.converse before).1 ++ ((h.converse before).2.converse later).1, ((h.converse before).2.converse later).2) := by
  induction before generalizing h with
  | nil => rfl
  | cons c before ih => simp only [List.cons_append, converse_cons, ih]

theorem length_converse (h : Holdings σ) (calls : List (Call σ)) : (h.converse calls).1.length = calls.length := by
  induction calls generalizing h with
  | nil => rfl
  | cons c calls ih => simp only [converse_cons, List.length_cons, ih]

theorem converse_cons_of_error (hfail : (h.answer c).1 = .error f) (calls : List (Call σ)) :
    h.converse (c :: calls) = (.error f :: (h.converse calls).1, (h.converse calls).2) := by
  rw [converse_cons, answer_of_error hfail]

/-- The calls of a conversation that do not fail. -/
def accepted (h : Holdings σ) : List (Call σ) → List (Call σ)
  | [] => []
  | c :: calls =>
    match h.answer c with
    | (.error _, next) => next.accepted calls
    | (.ok _, next) => c :: next.accepted calls

/-- A conversation is as if none of the calls that fail had been made. -/
theorem converse_accepted (h : Holdings σ) (calls : List (Call σ)) :
    h.converse (h.accepted calls) = ((h.converse calls).1.filter (·.isOk), (h.converse calls).2) := by
  induction calls generalizing h with
  | nil => rfl
  | cons c calls ih =>
    rcases hresult : h.answer c with ⟨f | reply, next⟩
    · have hfail : (h.answer c).1 = .error f := congrArg Prod.fst hresult
      obtain rfl : next = h := (congrArg Prod.snd hresult).symm.trans (congrArg Prod.snd (answer_of_error hfail))
      rw [accepted, hresult, converse_cons_of_error hfail]
      exact ih next
    · rw [accepted, hresult]
      simp only [converse_cons, hresult, ih next]
      rfl

/-- A call fails just if it is out of order, whatever the store and the registry have come to. Then they are
as they were, and a conversation in which the call is left out has all the other answers and comes to the
same end. -/
theorem refusal_leaves_no_trace (h : Holdings σ) (before : List (Call σ)) (c : Call σ) :
    let reached := (h.converse before).2
    ((∃ f, (reached.answer c).1 = .error f) ↔ ¬c.InOrder reached) ∧
    ∀ f, (reached.answer c).1 = .error f →
      (reached.answer c).2 = reached ∧
      ∀ later, h.converse (before ++ later) =
        ((h.converse (before ++ c :: later)).1.eraseIdx before.length, (h.converse (before ++ c :: later)).2) := by
  intro reached
  refine ⟨exists_error_iff, fun f hfail => ⟨congrArg Prod.snd (answer_of_error hfail), fun later => ?_⟩⟩
  have hrest : reached.converse (c :: later) = (.error f :: (reached.converse later).1, (reached.converse later).2) :=
    converse_cons_of_error hfail later
  have herase : ((h.converse before).1 ++ .error f :: (reached.converse later).1).eraseIdx before.length =
      (h.converse before).1 ++ (reached.converse later).1 := by
    rw [List.eraseIdx_append_of_length_le (length_converse h before).le, length_converse, Nat.sub_self,
      List.eraseIdx_cons_zero]
  rw [converse_append, converse_append, hrest, herase]

/-- The definition that is there is asked for anew, with a key in its spec that is no text. -/
def unfitLetters : Call Nat :=
  .define 0 ⟨fun _ => .epoch, 0⟩ ⟨.text "letters", .text "list", .map [(.int 1, .null)], .null⟩

/-- This fails when the spec is checked, and whatever is asked afterwards has the answer that it had before. -/
theorem refusal_leaves_no_trace_letters :
    let later := [.ofStore 0 .list, .ofStore 0 .serialize, .ofStore 0 .lines, .ofRegistry 1 .types]
    (lettersHoldings.answer unfitLetters).1 =
        .error (.invalid [⟨[.name "spec", .number 1, .name "[key]"], .notText⟩]) ∧
      (lettersHoldings.answer unfitLetters).2 = lettersHoldings ∧
      (lettersHoldings.converse later).1 = (lettersHoldings.converse (unfitLetters :: later)).1.tail := by
  intro later
  have hfail : (lettersHoldings.answer unfitLetters).1 =
      .error (.invalid [⟨[.name "spec", .number 1, .name "[key]"], .notText⟩]) := by rfl
  obtain ⟨-, htrace⟩ := refusal_leaves_no_trace lettersHoldings [] unfitLetters
  obtain ⟨hsame, hconverse⟩ := htrace _ hfail
  have hanswers := congrArg Prod.fst (hconverse later)
  exact ⟨hfail, hsame, by simpa only [List.nil_append, List.length_nil, List.eraseIdx_zero] using hanswers⟩

end Holdings
end Foreach

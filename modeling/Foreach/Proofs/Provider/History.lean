import Foreach.Proofs.Provider.Registry
import Foreach.Proofs.Text.Order
import Mathlib.Data.List.Induction

/-!
The history of a registry.

Changes of a registry are noted with their answers. What the notes say of a type last is what the registry
gives for it, however it is asked. They also decide the answer to the next change: a registration fails just
if the notes have another provider for the type, which must not be replaced.
-/

namespace Foreach.Registry

variable {α : Type}

/-- A change of a registry. -/
inductive Change (α : Type) where
  | register (type : String) (p : α) (replace : Bool)
  | unregister (type : String)

/-- What comes back from a change that does not fail. -/
inductive Answer where
  | registered (notices : List Notice)
  | unregistered (there : Bool)

/-- The answer to a change, and the registry after it. -/
def change [BEq α] (r : Registry α) : Change α → Except Fault Answer × Registry α
  | .register type p replace =>
    let (result, after) := r.register type p replace
    (result.map .registered, after)
  | .unregister type =>
    let (after, there) := r.unregister type
    (.ok (.unregistered there), after)

/-- A change with its answer. -/
abbrev Note (α : Type) := Change α × Except Fault Answer

/-- What a note says of a type: the provider that it has from then on, or that it has none. -/
def Note.says? (type : String) : Note α → Option (Option α)
  | (.register t p _, .ok _) => if t = type then some (some p) else none
  | (.register .., .error _) => none
  | (.unregister t, _) => if t = type then some none else none

/-- The provider of a type, by what notes say of it last; the latest come first. -/
def latest (log : List (Note α)) (type : String) : Option α := (log.findSome? (Note.says? type)).join

/-- The notes have a provider for the type, which is another one. -/
def Taken [BEq α] (log : List (Note α)) (type : String) (p : α) : Prop :=
  ∃ q, latest log type = some q ∧ (q == p) = false

/-- The answer that a change gets after these notes. -/
inductive Due [BEq α] (log : List (Note α)) : Change α → Except Fault Answer → Prop
  | conflict {type : String} {p : α} (htaken : Taken log type p) :
    Due log (.register type p false) (.error (.conflict type))
  | replaced {type : String} {p : α} (htaken : Taken log type p) :
    Due log (.register type p true) (.ok (.registered [.replacedProvider type]))
  | registered {type : String} {p : α} {replace : Bool} (hfree : ¬Taken log type p) :
    Due log (.register type p replace) (.ok (.registered []))
  | unregistered (type : String) :
    Due log (.unregister type) (.ok (.unregistered (latest log type).isSome))

/-- The registry is what the notes say, and each of them has the answer that it was due. -/
structure Follows [BEq α] (log : List (Note α)) (r : Registry α) : Prop where
  get? : ∀ type, r.get? type = latest log type
  distinct : (r.entries.map (·.1)).Nodup
  due : ∀ later c answer earlier, log = later ++ (c, answer) :: earlier → Due earlier c answer

variable {log : List (Note α)} {r : Registry α} {type : String} {p : α}

/-! ### Entries -/

theorem mem_keys_put {entries : List (String × α)} {t : String} :
    t ∈ (put entries type p).map (·.1) ↔ t = type ∨ t ∈ entries.map (·.1) := by
  induction entries with
  | nil => simp [put]
  | cons entry rest ih =>
    obtain ⟨first, q⟩ := entry
    by_cases hfirst : first = type
    · simp [put, hfirst]
    · simp only [put, if_neg hfirst, List.map_cons, List.mem_cons, ih]
      exact or_left_comm

theorem nodup_keys_put {entries : List (String × α)} (h : (entries.map (·.1)).Nodup) (type : String) (p : α) :
    ((put entries type p).map (·.1)).Nodup := by
  induction entries with
  | nil => simp [put]
  | cons entry rest ih =>
    obtain ⟨first, q⟩ := entry
    by_cases hfirst : first = type
    · simpa [put, hfirst] using h
    · obtain ⟨hnot, hrest⟩ := List.nodup_cons.1 h
      simp only [put, if_neg hfirst, List.map_cons]
      refine List.nodup_cons.2 ⟨?_, ih hrest⟩
      rw [mem_keys_put]
      rintro (heq | hmem)
      · exact hfirst heq
      · exact hnot hmem

/-- With one entry for each type, what is found is what is there. -/
theorem lookup_eq_some_iff {entries : List (String × α)} (h : (entries.map (·.1)).Nodup) :
    entries.lookup type = some p ↔ (type, p) ∈ entries := by
  refine ⟨mem_of_lookup, fun hmem => ?_⟩
  induction entries with
  | nil => cases hmem
  | cons entry rest ih =>
    obtain ⟨t, q⟩ := entry
    obtain ⟨hnot, hrest⟩ := List.nodup_cons.1 h
    rw [lookup_entry]
    rcases List.mem_cons.1 hmem with heq | hinside
    · cases heq
      exact if_pos rfl
    · have hne : type ≠ t := by
        rintro rfl
        exact hnot (List.mem_map.2 ⟨(type, p), hinside, rfl⟩)
      rw [if_neg hne]
      exact ih hrest hinside

theorem mem_items_iff (h : (r.entries.map (·.1)).Nodup) : (type, p) ∈ r.items ↔ r.get? type = some p := by
  have hperm : r.items.Perm r.entries := List.mergeSort_perm r.entries _
  exact hperm.mem_iff.trans (lookup_eq_some_iff h).symm

theorem mem_types_iff (h : (r.entries.map (·.1)).Nodup) : type ∈ r.types ↔ r.has type = true := by
  simp only [types, List.mem_map, Prod.exists, exists_and_right, exists_eq_right, mem_items_iff h, has,
    Option.isSome_iff_exists]

/-! ### One more change -/

theorem latest_cons (note : Note α) (log : List (Note α)) (type : String) :
    latest (note :: log) type = (note.says? type).getD (latest log type) := by
  unfold latest
  rw [List.findSome?_cons]
  cases note.says? type <;> rfl

variable [BEq α]

/-- What a registration does, by whether another provider has the type. -/
theorem change_register_cases (r : Registry α) (type : String) (p : α) (replace : Bool) :
    (∃ q, r.get? type = some q ∧ (q == p) = false) ∧ replace = false ∧
        r.change (.register type p replace) = (.error (.conflict type), r) ∨
      (∃ q, r.get? type = some q ∧ (q == p) = false) ∧ replace = true ∧
        r.change (.register type p replace) =
          (.ok (.registered [.replacedProvider type]), ⟨put r.entries type p⟩) ∨
      (¬∃ q, r.get? type = some q ∧ (q == p) = false) ∧
        r.change (.register type p replace) = (.ok (.registered []), ⟨put r.entries type p⟩) := by
  cases hget : r.get? type with
  | none => simp [change, register, hget, Except.map]
  | some q =>
    cases hsame : q == p with
    | true => simp [change, register, hget, hsame, Except.map]
    | false => cases replace <;> simp [change, register, hget, hsame, Except.map]

theorem change_of_error {c : Change α} {f : Fault} (h : (r.change c).1 = .error f) : (r.change c).2 = r := by
  cases c with
  | unregister => cases h
  | register type p replace =>
    rcases change_register_cases r type p replace with ⟨-, -, hchange⟩ | ⟨-, -, hchange⟩ | ⟨-, hchange⟩
    · rw [hchange]
    all_goals
      rw [hchange] at h
      cases h

theorem Follows.taken_iff (h : Follows log r) :
    Taken log type p ↔ ∃ q, r.get? type = some q ∧ (q == p) = false := by
  rw [Taken, h.get?]

theorem Follows.due_change (h : Follows log r) (c : Change α) : Due log c (r.change c).1 := by
  cases c with
  | register type p replace =>
    rcases change_register_cases r type p replace with
      ⟨hother, rfl, hchange⟩ | ⟨hother, rfl, hchange⟩ | ⟨hfree, hchange⟩
    · rw [hchange]
      exact .conflict (h.taken_iff.2 hother)
    · rw [hchange]
      exact .replaced (h.taken_iff.2 hother)
    · rw [hchange]
      exact .registered (mt h.taken_iff.1 hfree)
  | unregister type =>
    have hthere : (r.change (.unregister type)).1 = .ok (.unregistered (latest log type).isSome) := by
      rw [← h.get?]
      rfl
    rw [hthere]
    exact .unregistered type

theorem Follows.get?_change (h : Follows log r) (c : Change α) (type : String) :
    (r.change c).2.get? type = latest ((c, (r.change c).1) :: log) type := by
  rw [latest_cons, ← h.get?]
  have hput : ∀ t p, Registry.get? ⟨put r.entries t p⟩ type = if type = t then some p else r.get? type :=
    fun t p => lookup_put r.entries t p type
  cases c with
  | register t p replace =>
    rcases change_register_cases r t p replace with ⟨-, -, hchange⟩ | ⟨-, -, hchange⟩ | ⟨-, hchange⟩
    · rw [hchange]
      rfl
    all_goals
      rw [hchange]
      simp only [hput, Note.says?, eq_comm (a := type)]
      split_ifs <;> rfl
  | unregister t =>
    simp only [change, get?_unregister, Note.says?, eq_comm (a := type)]
    split_ifs <;> rfl

theorem nodup_keys_change (h : (r.entries.map (·.1)).Nodup) (c : Change α) :
    ((r.change c).2.entries.map (·.1)).Nodup := by
  cases c with
  | register type p replace =>
    rcases change_register_cases r type p replace with ⟨-, -, hchange⟩ | ⟨-, -, hchange⟩ | ⟨-, hchange⟩
    · rw [hchange]
      exact h
    all_goals
      rw [hchange]
      exact nodup_keys_put h type p
  | unregister type => exact h.sublist (List.filter_sublist.map _)

theorem Follows.change (h : Follows log r) (c : Change α) :
    Follows ((c, (r.change c).1) :: log) (r.change c).2 where
  get? := h.get?_change c
  distinct := nodup_keys_change h.distinct c
  due later d answer earlier hlog := by
    cases later with
    | nil =>
      cases hlog
      exact h.due_change c
    | cons first later =>
      obtain ⟨-, hlog⟩ := List.cons.inj hlog
      exact h.due later d answer earlier hlog

/-! ### Changes, one after another -/

/-- The changes that were made, with their answers and the latest first, and what they have made of the
registry. -/
structure Annals (α : Type) where
  log : List (Note α)
  registry : Registry α

namespace Annals

/-- After one more change. -/
def add (a : Annals α) (c : Change α) : Annals α :=
  ⟨(c, (a.registry.change c).1) :: a.log, (a.registry.change c).2⟩

/-- After changes of a registry that is empty at first. -/
def ofChanges (changes : List (Change α)) : Annals α := changes.foldl add ⟨[], .empty⟩

theorem follows_ofChanges (changes : List (Change α)) :
    Follows (ofChanges changes).log (ofChanges changes).registry := by
  induction changes using List.reverseRecOn with
  | nil =>
    refine ⟨fun type => rfl, List.nodup_nil, ?_⟩
    intro later c answer earlier hlog
    cases later <;> cases hlog
  | append_singleton changes c ih =>
    rw [ofChanges, List.foldl_concat]
    exact ih.change c

/-- A registry follows its history. Whatever changes are made, in whatever order: a type has the provider of
the last registration of it that did not fail, if it has not been taken out since, and no provider otherwise;
whether there is one, the types and the items tell the same, and these are in the strict order of the codes of
the types; a registration fails just if it must not replace another provider that is there, and there is one
notice for each that does replace another; a removal tells whether the type was there. A change that fails
leaves the registry as it was. -/
theorem registry_follows_history (changes : List (Change α)) :
    let a := ofChanges changes
    (∀ type, a.registry.get? type = latest a.log type) ∧
    (∀ type, a.registry.has type = (a.registry.get? type).isSome) ∧
    (∀ type, type ∈ a.registry.types ↔ a.registry.has type = true) ∧
    (∀ type p, (type, p) ∈ a.registry.items ↔ a.registry.get? type = some p) ∧
    a.registry.types.Pairwise (fun s t => List.Lex (· < ·) (Text.codes s) (Text.codes t)) ∧
    a.registry.items.map (·.1) = a.registry.types ∧
    (∀ later c answer earlier, a.log = later ++ (c, answer) :: earlier → Due earlier c answer) ∧
    ∀ c f, (a.registry.change c).1 = .error f → (a.add c).registry = a.registry := by
  intro a
  have h : Follows a.log a.registry := follows_ofChanges changes
  refine ⟨h.get?, fun type => rfl, fun type => mem_types_iff h.distinct, fun type p => mem_items_iff h.distinct, ?_,
    rfl, h.due, fun c f => change_of_error⟩
  exact Text.pairwise_codes_mergeSort h.distinct

end Annals
end Foreach.Registry

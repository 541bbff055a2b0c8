import Foreach.Definition.Store

/-!
What a store can fail with.

A type is looked up before anything else, and the user is told if it is not registered. Whatever fails after
that is about the name, the spec or the other fields, and so is a document that cannot be gone through: such a
failure is not made for the user, and has no status of its own.
-/

namespace Foreach

theorem exists_of_mapM_error {ε α β : Type} {f : α → Except ε β} {as : List α} {e : ε}
    (h : as.mapM f = .error e) : ∃ a ∈ as, f a = .error e := by
  induction as with
  | nil => cases h
  | cons a as ih =>
    rw [List.mapM_cons] at h
    cases ha : f a with
    | error e' =>
      rw [ha] at h
      cases h
      exact ⟨a, List.mem_cons_self, ha⟩
    | ok b =>
      cases has : as.mapM f with
      | ok bs =>
        rw [ha, has] at h
        cases h
      | error e' =>
        rw [ha, has] at h
        cases h
        obtain ⟨a', hmem, ha'⟩ := ih has
        exact ⟨a', List.mem_cons_of_mem a hmem, ha'⟩

namespace Store

variable {s : Store} {registered : Key → Bool} {clock : Clock} {p : Proposal} {name : String}

/-- A failure that is about a value, and is nothing to tell the user or to end the program with. -/
structure Indifferent (f : Fault) : Prop where
  reported : f.isReported = false
  status : f.status? = none

theorem keyOf_text (s : String) : keyOf (.text s) = .ok (.text s) := rfl

theorem acceptType_text (registered : Key → Bool) (type : String) :
    acceptType registered (.text type) =
      if registered (.text type) then .ok () else .error (.unknownType type) := rfl

theorem keyOf_error {v : Value} {f : Fault} (h : keyOf v = .error f) : Indifferent f := by
  unfold keyOf at h
  cases hkey : v.toKey? with
  | some key =>
    rw [hkey] at h
    cases h
  | none =>
    rw [hkey] at h
    cases h
    exact ⟨rfl, rfl⟩

theorem elements_error {v : Value} {f : Fault} (h : elements v = .error f) : Indifferent f := by
  unfold elements at h
  cases helems : elements? v with
  | none =>
    rw [helems] at h
    cases h
    exact ⟨rfl, rfl⟩
  | some vs =>
    rw [helems] at h
    cases h

theorem pairOf_error {v : Value} {f : Fault} (h : pairOf v = .error f) : Indifferent f := by
  unfold pairOf at h
  split at h
  next =>
    cases h
    exact ⟨rfl, rfl⟩
  next k w _ =>
    cases hkey : keyOf k with
    | error g =>
      rw [hkey] at h
      cases h
      exact keyOf_error hkey
    | ok key =>
      rw [hkey] at h
      cases h
  next =>
    cases h
    exact ⟨rfl, rfl⟩

theorem mappingOf_error {v : Value} {f : Fault} (h : mappingOf v = .error f) : Indifferent f := by
  unfold mappingOf at h
  split at h
  next => cases h
  next =>
    split at h
    next g helements =>
      cases h
      exact elements_error helements
    next vs _ =>
      cases hpairs : vs.mapM pairOf with
      | ok pairs =>
        rw [hpairs] at h
        cases h
      | error g =>
        rw [hpairs] at h
        cases h
        obtain ⟨w, -, hw⟩ := exists_of_mapM_error hpairs
        exact pairOf_error hw

theorem definitionOf_error {existing : Option Definition} {now : Timestamp} {f : Fault}
    (h : definitionOf p existing now = .error f) : Indifferent f := by
  unfold definitionOf at h
  split at h
  next g hspec =>
    cases h
    exact mappingOf_error hspec
  next =>
    split at h
    next =>
      cases h
      exact ⟨rfl, rfl⟩
    next => cases h

theorem put_error {now : Timestamp} {f : Fault} (h : (s.put now p).1 = .error f) : Indifferent f := by
  unfold put at h
  split at h
  next g hkey =>
    cases h
    exact keyOf_error hkey
  next key _ =>
    split at h
    next g hdefinition =>
      cases h
      exact definitionOf_error hdefinition
    next => cases h

theorem acceptType_error {type : Value} {f : Fault} (h : acceptType registered type = .error f) :
    (∃ key, f = .unknownType key) ∨ Indifferent f := by
  unfold acceptType at h
  split at h
  next g hkey =>
    cases h
    exact .inr (keyOf_error hkey)
  next key _ =>
    split at h
    next => cases h
    next =>
      cases h
      exact .inl ⟨key.display, rfl⟩

theorem define_error {f : Fault} (h : (s.define registered clock p).1 = .error f) :
    (∃ key, f = .unknownType key) ∨ Indifferent f := by
  unfold define at h
  split at h
  next g haccept =>
    cases h
    exact acceptType_error haccept
  next => exact .inr (put_error h)

theorem status?_of_define {f : Fault} (h : (s.define registered clock p).1 = .error f) : f.status? = none := by
  rcases define_error h with ⟨key, rfl⟩ | hindifferent
  · rfl
  · exact hindifferent.status

theorem recordsOf_error {document : Value} {f : Fault} (h : recordsOf document = .error f) : Indifferent f := by
  unfold recordsOf at h
  split at h
  next => cases h
  next =>
    split at h
    next =>
      dsimp only at h
      split at h
      next => cases h
      next => exact elements_error h
    next =>
      cases h
      exact ⟨rfl, rfl⟩

theorem deserialize_error {document : Value} {f : Fault} (h : (s.deserialize document).1 = .error f) :
    Indifferent f := by
  unfold deserialize at h
  split at h
  next g hrecords =>
    cases h
    exact recordsOf_error hrecords
  next => cases h

/-- A type is refused just if it is a key that is not registered. -/
theorem define_unknownType_iff : (s.define registered clock p).1 = .error (.unknownType name) ↔
    ∃ key, keyOf p.type = .ok key ∧ key.display = name ∧ registered key = false := by
  unfold define acceptType
  cases hkey : keyOf p.type with
  | error f =>
    have hne : f ≠ .unknownType name := by
      rintro rfl
      cases (keyOf_error hkey).reported
    simpa using hne
  | ok key =>
    cases hregistered : registered key with
    | false => simp [hregistered]
    | true =>
      have hput : (s.put clock.now p).1 ≠ .error (.unknownType name) := fun h => by
        cases (put_error h).reported
      simpa [hregistered] using hput

end Store
end Foreach

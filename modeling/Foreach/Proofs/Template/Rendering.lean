import Foreach.Template.Render
import Foreach.Proofs.Json.Domain
import Foreach.Proofs.Template.Search
import Mathlib.Data.List.Forall2

/-!
What a template renders to.

Each piece of the decomposition is replaced on its own, and the texts are put in a row. So nothing that is
put in can become part of a token.
-/

namespace Foreach.Template

/-- A text takes the place of a piece: a character stays, and a token gives way to the value at its key,
else to its default, else it stays. -/
inductive Replaces (vars : Value) : Piece → List Char → Prop
  | literal (c : Char) : Replaces vars (.literal c) [c]
  | value {body key cs : List Char} {default? : Option (List Char)} {v : Value}
      (hparts : Parts body key default?) (hfound : Path.lookup vars key = some v)
      (hformat : format v = .ok cs) : Replaces vars (.token body) cs
  | default {body key default : List Char} (hparts : Parts body key (some default))
      (hmissing : Path.lookup vars key = none) (hdefault : default ≠ []) :
      Replaces vars (.token body) default
  | verbatim {body key : List Char} {default? : Option (List Char)}
      (hparts : Parts body key default?) (hmissing : Path.lookup vars key = none)
      (hdefault : ∀ default, default? = some default → default = []) :
      Replaces vars (.token body) ('{' :: (body ++ ['}']))

theorem fill_token_eq_ok {vars : Value} {body cs : List Char}
    (h : fill vars (.token body) = .ok cs) : Replaces vars (.token body) cs := by
  have hparts : Parts body (key body) (default? body) := parts_iff.2 ⟨rfl, rfl⟩
  cases hlookup : Path.lookup vars (key body) with
  | some v =>
    simp only [fill, hlookup] at h
    exact .value hparts hlookup h
  | none =>
    simp only [fill, hlookup, Except.ok.injEq] at h
    subst h
    cases hdefault : default? body with
    | none =>
      simp only [fallback, hdefault, verbatim]
      exact .verbatim hparts hlookup (by simp [hdefault])
    | some default =>
      cases default with
      | nil =>
        simp only [fallback, hdefault, verbatim]
        exact .verbatim hparts hlookup (by simp [hdefault])
      | cons c cs =>
        simp only [fallback, hdefault]
        exact .default (hdefault ▸ hparts) hlookup (List.cons_ne_nil c cs)

theorem fill_eq_ok_iff {vars : Value} {p : Piece} {cs : List Char} :
    fill vars p = .ok cs ↔ Replaces vars p cs := by
  constructor
  · cases p with
    | literal c =>
      rintro ⟨⟩
      exact .literal c
    | token body => exact fill_token_eq_ok
  · intro h
    cases h with
    | literal c => rfl
    | value hparts hfound hformat =>
      obtain ⟨rfl, -⟩ := parts_iff.1 hparts
      simpa only [fill, hfound] using hformat
    | default hparts hmissing hdefault =>
      obtain ⟨rfl, hdefault?⟩ := parts_iff.1 hparts
      obtain ⟨c, cs, rfl⟩ := List.exists_cons_of_ne_nil hdefault
      simp only [fill, hmissing, fallback, ← hdefault?]
    | @verbatim body _ default? hparts hmissing hdefault =>
      obtain ⟨rfl, hdefault?⟩ := parts_iff.1 hparts
      cases default? with
      | none => simp only [fill, hmissing, fallback, ← hdefault?, Template.verbatim]
      | some default =>
        cases hdefault default rfl
        simp only [fill, hmissing, fallback, ← hdefault?, Template.verbatim]

/-- The pieces are replaced one by one. -/
theorem fillAll_eq_ok_iff {vars : Value} {ps : List Piece} {cs : List Char} :
    fillAll vars ps = .ok cs ↔ ∃ texts, List.Forall₂ (Replaces vars) ps texts ∧ cs = texts.flatten := by
  induction ps generalizing cs with
  | nil => simp [fillAll, eq_comm]
  | cons p ps ih =>
    rw [fillAll]
    constructor
    · intro h
      cases hfill : fill vars p with
      | error f => simp [hfill] at h
      | ok front =>
        cases hrest : fillAll vars ps with
        | error f => simp [hfill, hrest] at h
        | ok rest =>
          simp only [hfill, hrest, Except.ok.injEq] at h
          obtain ⟨texts, htexts, rfl⟩ := ih.1 hrest
          exact ⟨front :: texts, .cons (fill_eq_ok_iff.1 hfill) htexts, by simp [← h]⟩
    · rintro ⟨texts, htexts, rfl⟩
      obtain ⟨front, rest, hfront, hrest, rfl⟩ := List.forall₂_cons_left_iff.1 htexts
      simp only [fill_eq_ok_iff.2 hfront, ih.2 ⟨rest, hrest, rfl⟩, List.flatten_cons]

theorem interpolate_eq_ok_iff {template text : String} {vars : Value} :
    interpolate template vars = .ok text ↔ fillAll vars (pieces template.toList) = .ok text.toList := by
  rw [interpolate]
  cases fillAll vars (pieces template.toList) with
  | error f => simp [Except.map]
  | ok cs =>
    simp only [Except.map, Except.ok.injEq]
    exact ⟨fun h => by rw [← h, String.toList_ofList], fun h => by rw [h, String.ofList_toList]⟩

/-- A template has exactly one decomposition, whose tokens are those that a search finds, and it renders
to the texts that take the place of the pieces. -/
theorem interpolate_by_grammar (template : String) (vars : Value) :
    (∃! ps, Decomposes template.toList ps) ∧
    (∀ ps, Finds template.toList ps ↔ Decomposes template.toList ps) ∧
    ∀ text, interpolate template vars = .ok text ↔
      ∃ ps texts, Decomposes template.toList ps ∧ List.Forall₂ (Replaces vars) ps texts ∧
        text.toList = texts.flatten := by
  refine ⟨⟨_, decomposes_pieces _, fun ps hps => decomposes_iff.1 hps⟩, fun ps => finds_iff,
    fun text => ?_⟩
  rw [interpolate_eq_ok_iff, fillAll_eq_ok_iff]
  constructor
  · rintro ⟨texts, htexts, htext⟩
    exact ⟨_, texts, decomposes_pieces _, htexts, htext⟩
  · rintro ⟨ps, texts, hps, htexts, htext⟩
    cases decomposes_iff.1 hps
    exact ⟨texts, htexts, htext⟩

/-! ### Templates that cannot be rendered -/

theorem format_eq_error_iff {v : Value} {f : Fault} :
    format v = .error f ↔ f = unprintable ∧ v.HoldsUnwritable := by
  have container : ∀ {w : Value},
      format w = (Json.print .compact 0 w).elim (.error unprintable) .ok →
      (format w = .error f ↔ f = unprintable ∧ w.HoldsUnwritable) := by
    intro w hformat
    have hnone : Json.print .compact 0 w = none ↔ w.HoldsUnwritable := Json.print_eq_none_iff
    rw [hformat, ← hnone]
    cases Json.print .compact 0 w <;> simp [eq_comm]
  cases v with
  | list | tuple | map =>
    refine container ?_
    rw [format]
    split
    next hprint => rw [hprint, Option.elim_some]
    next hprint => rw [hprint, Option.elim_none]
  | _ =>
    constructor
    · rintro ⟨⟩
    · rintro ⟨-, ⟨⟩⟩

theorem fill_eq_error_iff {vars : Value} {p : Piece} {f : Fault} :
    fill vars p = .error f ↔ f = unprintable ∧ ∃ body v, p = .token body ∧
      Path.lookup vars (key body) = some v ∧ v.HoldsUnwritable := by
  cases p with
  | literal c => simp [fill]
  | token body =>
    rw [fill]
    cases hlookup : Path.lookup vars (key body) with
    | none => simp [hlookup]
    | some v => simp [hlookup, format_eq_error_iff]

/-- The first piece that has no text is that of the whole. -/
theorem fillAll_eq_error_iff {vars : Value} {ps : List Piece} {f : Fault} :
    fillAll vars ps = .error f ↔ f = unprintable ∧ ∃ body v, .token body ∈ ps ∧
      Path.lookup vars (key body) = some v ∧ v.HoldsUnwritable := by
  induction ps with
  | nil => simp [fillAll]
  | cons p ps ih =>
    rw [fillAll]
    cases hfill : fill vars p with
    | error g =>
      obtain ⟨rfl, body, v, rfl, hlookup, hholds⟩ := fill_eq_error_iff.1 hfill
      constructor
      · rintro ⟨⟩
        exact ⟨rfl, body, v, List.mem_cons_self, hlookup, hholds⟩
      · rintro ⟨rfl, -⟩
        rfl
    | ok cs =>
      have hrest : (∃ body v, .token body ∈ p :: ps ∧ Path.lookup vars (key body) = some v ∧
            v.HoldsUnwritable) ↔
          ∃ body v, .token body ∈ ps ∧ Path.lookup vars (key body) = some v ∧ v.HoldsUnwritable := by
        constructor
        · rintro ⟨body, v, hmem, hlookup, hholds⟩
          rcases List.mem_cons.1 hmem with rfl | hmem
          · cases hfill.symm.trans (fill_eq_error_iff.2 ⟨rfl, body, v, rfl, hlookup, hholds⟩)
          · exact ⟨body, v, hmem, hlookup, hholds⟩
        · rintro ⟨body, v, hmem, hfound⟩
          exact ⟨body, v, List.mem_cons_of_mem p hmem, hfound⟩
      rw [hrest, ← ih]
      cases fillAll vars ps <;> simp

/-- A template cannot be rendered just if some token finds a value without a document, which is a container
that holds a mapping with a key of the wrong kind. -/
theorem interpolate_eq_error_iff {template : String} {vars : Value} {f : Fault} :
    interpolate template vars = .error f ↔ f = unprintable ∧ ∃ body v,
      .token body ∈ pieces template.toList ∧ Path.lookup vars (key body) = some v ∧
        v.HoldsUnwritable := by
  rw [← fillAll_eq_error_iff, interpolate]
  cases fillAll vars (pieces template.toList) <;> simp [Except.map]

end Foreach.Template

import Foreach.Proofs.Template.Rendering
import Mathlib.Data.List.Induction

/-!
Templates that are put one behind the other.

A token cannot reach over the seam if every brace that might open one in the first template is closed there.
Then the pieces of the whole are those of the first and after them those of the second, and so are the texts,
whatever the second template or a value has in it. Nothing less will do: behind any other first template
something can be put that makes a token of its end.
-/

namespace Foreach.Template

variable {front back cs : List Char} {ps qs : List Piece}

/-- Every opening brace has a closing one somewhere behind it. -/
def Closed (cs : List Char) : Prop := ∀ before after, cs = before ++ '{' :: after → '}' ∈ after

/-- Every opening brace has a colon right behind it or a closing brace somewhere. -/
def Sealed (cs : List Char) : Prop :=
  ∀ before after, cs = before ++ '{' :: after → after.head? = some ':' ∨ '}' ∈ after

theorem Closed.isSealed (h : Closed cs) : Sealed cs :=
  fun before after hcs => .inr (h before after hcs)

theorem Sealed.suffix (h : Sealed (front ++ back)) : Sealed back := by
  intro before after hback
  exact h (front ++ before) after (by rw [hback, List.append_assoc])

/-- What ends with a closing brace is closed. -/
theorem closed_concat (cs : List Char) : Closed (cs ++ ['}']) := by
  intro before after heq
  have hlast := congrArg List.getLast? heq
  rw [List.getLast?_concat, List.getLast?_append, List.getLast?_cons] at hlast
  cases after with
  | nil => simp at hlast
  | cons c after =>
    rw [List.getLast?_eq_some_getLast (List.cons_ne_nil c after)] at hlast
    simp only [Option.getD_some, Option.some_or, Option.some.injEq] at hlast
    exact hlast ▸ List.getLast_mem (List.cons_ne_nil c after)

/-! ### Tokens and the seam -/

/-- A token is there whatever follows. -/
theorem StartsToken.append (h : StartsToken front) (back : List Char) : StartsToken (front ++ back) := by
  obtain ⟨c, rest, rfl, hc, hcolon, hclosed⟩ := h
  exact ⟨c, rest ++ back, rfl, hc, hcolon, List.mem_append_left back hclosed⟩

/-- Where a text is sealed, no token starts that it does not hold. -/
theorem Sealed.startsToken {c : Char} (h : Sealed (c :: cs)) (htoken : StartsToken (c :: cs ++ back)) :
    StartsToken (c :: cs) := by
  obtain ⟨d, rest, heq, hd, hcolon, -⟩ := htoken
  obtain ⟨rfl, hrest⟩ := List.cons.inj heq
  rcases h [] cs rfl with hhead | hclosed
  · obtain ⟨after, rfl⟩ := List.head?_eq_some_iff.1 hhead
    cases hrest
    exact absurd rfl hcolon
  · cases cs with
    | nil => cases hclosed
    | cons e after =>
      obtain ⟨rfl, -⟩ := List.cons.inj hrest
      exact ⟨e, after, rfl, hd, hcolon, (List.mem_cons.1 hclosed).resolve_left hd.symm⟩

/-- A sealed text falls apart as it does alone. -/
theorem Decomposes.append (h : Decomposes front ps) (hsealed : Sealed front) (hback : Decomposes back qs) :
    Decomposes (front ++ back) (ps ++ qs) := by
  induction h with
  | nil => exact hback
  | literal hplain _ ih =>
    have hrest : Sealed ([_] ++ _) := hsealed
    exact .literal (mt hsealed.startsToken hplain) (ih hrest.suffix)
  | @token body rest ps hstarts hbody _ ih =>
    have hrest : Sealed ('{' :: (body ++ ['}']) ++ rest) := by simpa using hsealed
    have hwhole := hstarts.append back
    rw [List.cons_append, List.append_assoc, List.cons_append] at hwhole ⊢
    exact .token hwhole hbody (ih hrest.suffix)

theorem pieces_append (h : Sealed front) (back : List Char) :
    pieces (front ++ back) = pieces front ++ pieces back :=
  (decomposes_iff.1 ((decomposes_pieces front).append h (decomposes_pieces back))).symm

/-! ### Texts that are not sealed -/

/-- Every text is a closed one with no closing brace after it. -/
theorem exists_closed_append (cs : List Char) : ∃ front back, cs = front ++ back ∧ Closed front ∧ '}' ∉ back := by
  induction cs using List.reverseRecOn with
  | nil => exact ⟨[], [], rfl, fun before after heq => by simp at heq, List.not_mem_nil⟩
  | append_singleton cs c ih =>
    by_cases hc : c = '}'
    · exact ⟨cs ++ [c], [], (List.append_nil _).symm, hc ▸ closed_concat cs, List.not_mem_nil⟩
    · obtain ⟨front, back, rfl, hfront, hback⟩ := ih
      refine ⟨front, back ++ [c], List.append_assoc front back [c], hfront, ?_⟩
      rw [List.mem_append, List.mem_singleton]
      exact not_or_intro hback (Ne.symm hc)

theorem Decomposes.of_literal {c : Char} (h : Decomposes (c :: cs) (.literal c :: ps)) :
    ¬ StartsToken (c :: cs) ∧ Decomposes cs ps := by
  cases h with
  | literal hplain hrest => exact ⟨hplain, hrest⟩

/-- A brace that stands for itself starts no token. -/
theorem Decomposes.not_startsToken
    (h : Decomposes (front ++ '{' :: back) (front.map .literal ++ .literal '{' :: qs)) :
    ¬ StartsToken ('{' :: back) := by
  induction front with
  | nil => exact h.of_literal.1
  | cons c front ih => exact ih h.of_literal.2

/-- A first template keeps its pieces whatever follows just if it is sealed. -/
theorem sealed_iff : Sealed front ↔ ∀ back, pieces (front ++ back) = pieces front ++ pieces back := by
  refine ⟨pieces_append, fun hpieces before after hfront => ?_⟩
  by_contra hopen
  obtain ⟨hcolon, hunclosed⟩ := not_or.1 hopen
  obtain ⟨closed, plain, rfl, hclosed, hplain⟩ := exists_closed_append before
  have hbehind : '}' ∉ plain ++ '{' :: after := by simp [hplain, hunclosed]
  -- Behind the last closing brace all stands for itself, also before an end that makes a token of it.
  have hjoined : pieces (plain ++ '{' :: (after ++ ['x', '}'])) =
      plain.map .literal ++ .literal '{' :: (after.map .literal ++ pieces ['x', '}']) := by
    have hwhole := hpieces ['x', '}']
    rw [List.append_assoc] at hfront
    rw [hfront, List.append_assoc, pieces_append hclosed.isSealed, pieces_append hclosed.isSealed,
      pieces_of_unclosed hbehind, List.append_assoc (pieces closed)] at hwhole
    simpa using hwhole
  refine (decomposes_iff.2 hjoined.symm).not_startsToken ?_
  cases after with
  | nil => exact ⟨'x', ['}'], rfl, by decide, by decide, List.mem_cons_self⟩
  | cons d after =>
    refine ⟨d, after ++ ['x', '}'], rfl, (List.ne_of_not_mem_cons hunclosed).symm, ?_, by simp⟩
    rintro rfl
    exact hcolon rfl

/-! ### Texts -/

theorem fillAll_append (vars : Value) (ps qs : List Piece) :
    fillAll vars (ps ++ qs) = (fillAll vars ps).bind fun cs => (fillAll vars qs).map (cs ++ ·) := by
  induction ps with
  | nil =>
    rw [List.nil_append, fillAll, Except.bind]
    cases fillAll vars qs <;> rfl
  | cons p ps ih =>
    rw [List.cons_append, fillAll, fillAll, ih]
    cases fill vars p with
    | error f => rfl
    | ok cs =>
      cases fillAll vars ps with
      | error f => rfl
      | ok ds =>
        cases fillAll vars qs with
        | error f => rfl
        | ok es => simp [Except.bind, Except.map]

/-- Two templates that are joined render to the text of the first and then that of the second, if every opening
brace of the first has a closing one behind it in the first. If either cannot be rendered, neither can the
two. -/
theorem interpolate_append {first : String} (h : Closed first.toList) (second : String) (vars : Value) :
    interpolate (first ++ second) vars = do
      let front ← interpolate first vars
      let back ← interpolate second vars
      return front ++ back := by
  simp only [interpolate, String.toList_append, pieces_append h.isSealed, fillAll_append]
  cases fillAll vars (pieces first.toList) with
  | error f => rfl
  | ok cs =>
    cases fillAll vars (pieces second.toList) with
    | error f => rfl
    | ok ds => exact congrArg Except.ok String.ofList_append

/-- The value of `a` ends with an opening brace, and the second template begins with what would close it: no
token is made of the two. -/
theorem interpolate_append_braces :
    Closed "\x7b\x7d-\x7ba\x7d".toList ∧
      interpolate ("\x7b\x7d-\x7ba\x7d" ++ "b\x7d\x7bc:d\x7d\x7b") (.record [("a", .text "\x7b"), ("b", .text "x")]) =
        .ok "\x7b\x7d-\x7bb\x7dd\x7b" := by
  have hclosed : Closed "\x7b\x7d-\x7ba\x7d".toList := closed_concat "\x7b\x7d-\x7ba".toList
  refine ⟨hclosed, ?_⟩
  rw [interpolate_append hclosed]
  rfl

end Foreach.Template

import Foreach.Proofs.Text.Cut
import Foreach.Template.Token

/-!
The grammar of templates.

A template falls apart into characters and tokens in exactly one way from left to right, and `pieces` is
this way. What stands between the braces of a token is a key alone or a key with a default.
-/

namespace Foreach.Template

open Text (takeWhile_ne_append dropWhile_ne_append)

/-! ### Decompositions -/

/-- A token starts here: with an opening brace, a character that may follow it, and some closing brace
later on. -/
def StartsToken (cs : List Char) : Prop :=
  ∃ c rest, cs = '{' :: c :: rest ∧ c ≠ '}' ∧ c ≠ ':' ∧ '}' ∈ rest

/-- A text falls apart into these pieces from left to right. A token ends at the first closing brace, and
a character where no token starts stands for itself. -/
inductive Decomposes : List Char → List Piece → Prop
  | nil : Decomposes [] []
  | literal {c : Char} {cs : List Char} {ps : List Piece} (hplain : ¬ StartsToken (c :: cs))
      (hrest : Decomposes cs ps) : Decomposes (c :: cs) (.literal c :: ps)
  | token {body rest : List Char} {ps : List Piece}
      (hstarts : StartsToken ('{' :: (body ++ '}' :: rest))) (hbody : '}' ∉ body)
      (hrest : Decomposes rest ps) :
      Decomposes ('{' :: (body ++ '}' :: rest)) (.token body :: ps)

/-- The text of a token that starts here, up to the first closing brace. -/
theorem StartsToken.exists_body {cs : List Char} (h : StartsToken cs) :
    ∃ body rest, cs = '{' :: (body ++ '}' :: rest) ∧ '}' ∉ body := by
  obtain ⟨c, after, rfl, hc, -, hclosed⟩ := h
  obtain ⟨inner, rest, rfl, hinner⟩ := List.eq_append_cons_of_mem hclosed
  exact ⟨c :: inner, rest, rfl, List.not_mem_cons_of_ne_of_not_mem hc.symm hinner⟩

/-- A token has a first character, and that is no colon. -/
theorem startsToken_iff {body rest : List Char} (hbody : '}' ∉ body) :
    StartsToken ('{' :: (body ++ '}' :: rest)) ↔ ∃ c cs, body = c :: cs ∧ c ≠ ':' := by
  cases body with
  | nil =>
    constructor
    · rintro ⟨c, after, heq, hc, -⟩
      simp only [List.nil_append, List.cons.injEq, true_and] at heq
      exact absurd heq.1.symm hc
    · rintro ⟨c, cs, ⟨⟩, -⟩
  | cons d inner =>
    have hd : d ≠ '}' := fun h => hbody (h ▸ List.mem_cons_self)
    constructor
    · rintro ⟨c, after, heq, -, hcolon, -⟩
      simp only [List.cons_append, List.cons.injEq, true_and] at heq
      exact ⟨d, inner, rfl, heq.1 ▸ hcolon⟩
    · rintro ⟨c, cs, heq, hcolon⟩
      cases heq
      exact ⟨d, inner ++ '}' :: rest, rfl, hd, hcolon, by simp⟩

/-! ### The pieces -/

theorem piecesWithin_of_unclosed {cs : List Char} (h : '}' ∉ cs) (body : List Char) :
    piecesWithin body cs = .literal '{' :: (body.reverse ++ cs).map .literal := by
  induction cs generalizing body with
  | nil => simp [piecesWithin]
  | cons c cs ih =>
    rw [piecesWithin, if_neg (List.ne_of_not_mem_cons h).symm,
      ih (List.not_mem_of_not_mem_cons h)]
    simp

theorem piecesWithin_of_closed {inner : List Char} (h : '}' ∉ inner) (body rest : List Char) :
    piecesWithin body (inner ++ '}' :: rest) = .token (body.reverse ++ inner) :: pieces rest := by
  induction inner generalizing body with
  | nil => simp [piecesWithin]
  | cons c inner ih =>
    rw [List.cons_append, piecesWithin, if_neg (List.ne_of_not_mem_cons h).symm,
      ih (List.not_mem_of_not_mem_cons h)]
    simp

/-- Without a closing brace there is no token. -/
theorem pieces_of_unclosed {cs : List Char} (h : '}' ∉ cs) : pieces cs = cs.map .literal := by
  induction cs with
  | nil => simp [pieces]
  | cons c cs ih =>
    have hcs := List.not_mem_of_not_mem_cons h
    cases cs with
    | nil => simp [pieces]
    | cons d rest =>
      have hrest := List.not_mem_of_not_mem_cons hcs
      rw [pieces]
      split
      next hopens =>
        rw [Bool.and_eq_true, decide_eq_true_eq] at hopens
        rw [piecesWithin_of_unclosed hrest, hopens.1]
        rfl
      next =>
        rw [ih hcs]
        rfl

theorem pieces_of_token {body rest : List Char}
    (hstarts : StartsToken ('{' :: (body ++ '}' :: rest))) (hbody : '}' ∉ body) :
    pieces ('{' :: (body ++ '}' :: rest)) = .token body :: pieces rest := by
  obtain ⟨c, inner, rfl, hcolon⟩ := (startsToken_iff hbody).1 hstarts
  have hc := (List.ne_of_not_mem_cons hbody).symm
  rw [List.cons_append, pieces, if_pos (by simp [opensBody, hc, hcolon]),
    piecesWithin_of_closed (List.not_mem_of_not_mem_cons hbody)]
  rfl

/-- Where no token starts, one character is passed. -/
theorem pieces_of_plain {c : Char} {cs : List Char} (hplain : ¬ StartsToken (c :: cs)) :
    pieces (c :: cs) = .literal c :: pieces cs := by
  cases cs with
  | nil => simp [pieces]
  | cons d rest =>
    rw [pieces]
    split
    next hopens =>
      simp only [opensBody, Bool.and_eq_true, decide_eq_true_eq, bne_iff_ne] at hopens
      obtain ⟨rfl, hd, hcolon⟩ := hopens
      -- The brace is never closed, so nothing after it is a token either.
      have hrest : '}' ∉ rest := fun hclosed => hplain ⟨d, rest, rfl, hd, hcolon, hclosed⟩
      rw [piecesWithin_of_unclosed hrest,
        pieces_of_unclosed (List.not_mem_cons_of_ne_of_not_mem hd.symm hrest)]
      rfl
    next => rfl

theorem decomposes_pieces (cs : List Char) : Decomposes cs (pieces cs) := by
  induction hlength : cs.length using Nat.strongRecOn generalizing cs with
  | ind n ih =>
    subst hlength
    by_cases hstarts : StartsToken cs
    · obtain ⟨body, rest, rfl, hbody⟩ := hstarts.exists_body
      rw [pieces_of_token hstarts hbody]
      exact .token hstarts hbody (ih _ (by simp; omega) rest rfl)
    · cases cs with
      | nil => exact .nil
      | cons c cs =>
        rw [pieces_of_plain hstarts]
        exact .literal hstarts (ih _ (Nat.lt_succ_self _) cs rfl)

/-- The pieces of a template are its decomposition. -/
theorem decomposes_iff {cs : List Char} {ps : List Piece} : Decomposes cs ps ↔ ps = pieces cs := by
  constructor
  · intro h
    induction h with
    | nil => simp [pieces]
    | literal hplain _ ih => rw [pieces_of_plain hplain, ih]
    | token hstarts hbody _ ih => rw [pieces_of_token hstarts hbody, ih]
  · rintro rfl
    exact decomposes_pieces cs

/-! ### Keys and defaults -/

/-- What stands between the braces of a token is a key alone, or a key, a colon and a default. The first
colon counts. -/
inductive Parts : List Char → List Char → Option (List Char) → Prop
  | bare {key : List Char} (hkey : ':' ∉ key) : Parts key key none
  | defaulted {key default : List Char} (hkey : ':' ∉ key) :
      Parts (key ++ ':' :: default) key (some default)

theorem parts_iff {body k : List Char} {d : Option (List Char)} :
    Parts body k d ↔ k = key body ∧ d = default? body := by
  constructor
  · rintro (hkey | hkey)
    · have hall : ∀ c ∈ body, (c != ':') = true :=
        fun c hc => bne_iff_ne.2 (ne_of_mem_of_not_mem hc hkey)
      simp [key, default?, List.takeWhile_eq_self_iff.2 hall, List.dropWhile_eq_nil_iff.2 hall]
    · simp [key, default?, takeWhile_ne_append hkey, dropWhile_ne_append hkey]
  · rintro ⟨rfl, rfl⟩
    by_cases hcolon : ':' ∈ body
    · obtain ⟨k, d, rfl, hkey⟩ := List.eq_append_cons_of_mem hcolon
      simpa [key, default?, takeWhile_ne_append hkey, dropWhile_ne_append hkey] using
        Parts.defaulted hkey
    · have hall : ∀ c ∈ body, (c != ':') = true :=
        fun c hc => bne_iff_ne.2 (ne_of_mem_of_not_mem hc hcolon)
      simpa [key, default?, List.takeWhile_eq_self_iff.2 hall, List.dropWhile_eq_nil_iff.2 hall]
        using Parts.bare hcolon

end Foreach.Template

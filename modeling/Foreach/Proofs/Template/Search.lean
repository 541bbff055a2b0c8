import Foreach.Proofs.Template.Grammar

/-!
Searching a template for tokens.

The pattern of a token is an opening brace, a key of at least one character, a default behind a colon if
there is one, and a closing brace. A match takes as many characters as it can for the key and then for the
default, and gives them back one by one where the rest does not follow. None of these attempts but the
first can succeed, so the tokens that a search finds, each behind the end of the one before, are those of
the decomposition.
-/

namespace Foreach.Template

open Text (takeWhile_ne_append dropWhile_ne_append)

/-- The ways to take characters of a class from the front of a text, with what is left: the longest way
first. -/
def takings (p : Char → Bool) : List Char → List (List Char × List Char)
  | [] => [([], [])]
  | c :: cs =>
    if p c then ((takings p cs).map fun (taken, rest) => (c :: taken, rest)) ++ [([], c :: cs)]
    else [([], c :: cs)]

/-- A match of the pattern: the key, the default, and what comes behind the match. -/
structure Match where
  key : List Char
  default? : Option (List Char)
  rest : List Char

/-- A character that a default may have. -/
def isInner (c : Char) : Bool := c != '}'

/-- The match with this key and default, if it can be closed here. -/
def closings (key : List Char) (default? : Option (List Char)) : List Char → List Match
  | [] => []
  | c :: rest => if c = '}' then [⟨key, default?, rest⟩] else []

/-- The matches with this key and some default. -/
def defaultings (key : List Char) : List Char → List Match
  | [] => []
  | c :: rest =>
    if c = ':' then (takings isInner rest).flatMap fun (default, rest) => closings key (some default) rest
    else []

/-- The matches with this key: first those with a default. -/
def endings (key : List Char) (cs : List Char) : List Match :=
  defaultings key cs ++ closings key none cs

/-- The matches at the front of a text, in the order in which they are tried. -/
def attempts : List Char → List Match
  | [] => []
  | c :: cs =>
    if c = '{' then
      (takings opensBody cs).flatMap fun (key, rest) => if key = [] then [] else endings key rest
    else []

/-- What stands between the braces of a match. -/
def Match.body (m : Match) : List Char :=
  match m.default? with
  | none => m.key
  | some default => m.key ++ ':' :: default

/-- A search finds these pieces. It goes on behind the first match at each place, and by one character
where there is none. -/
inductive Finds : List Char → List Piece → Prop
  | nil : Finds [] []
  | hit {cs : List Char} {m : Match} {others : List Match} {ps : List Piece}
      (hmatch : attempts cs = m :: others) (hrest : Finds m.rest ps) : Finds cs (.token m.body :: ps)
  | miss {c : Char} {cs : List Char} {ps : List Piece} (hmatch : attempts (c :: cs) = [])
      (hrest : Finds cs ps) : Finds (c :: cs) (.literal c :: ps)

/-! ### One match -/

/-- Where nothing can follow behind a character of the class, only the longest way leads on. -/
theorem flatMap_takings {α : Type} {p : Char → Bool} {f : List Char × List Char → List α}
    (hf : ∀ taken c rest, p c = true → f (taken, c :: rest) = []) (cs : List Char) :
    (takings p cs).flatMap f = f (cs.takeWhile p, cs.dropWhile p) := by
  induction cs generalizing f with
  | nil => simp [takings]
  | cons c cs ih =>
    cases hc : p c with
    | false => simp [takings, hc]
    | true =>
      have hlonger := ih (f := fun way => f (c :: way.1, way.2))
        fun taken d rest hd => hf (c :: taken) d rest hd
      simp [takings, hc, List.flatMap_map, hlonger, hf]

theorem closings_of_closed (key : List Char) (default? : Option (List Char)) (rest : List Char) :
    closings key default? ('}' :: rest) = [⟨key, default?, rest⟩] := by
  simp [closings]

theorem closings_of_ne {c : Char} (hc : c ≠ '}') (key : List Char) (default? : Option (List Char))
    (rest : List Char) : closings key default? (c :: rest) = [] := if_neg hc

/-- A default is closed by the first brace behind it. -/
theorem defaultings_colon (key cs : List Char) : defaultings key (':' :: cs) =
    closings key (some (cs.takeWhile isInner)) (cs.dropWhile isInner) :=
  flatMap_takings (f := fun (default, rest) => closings key (some default) rest)
    (fun _ _ _ hc => closings_of_ne (bne_iff_ne.1 hc) _ _ _) cs

/-- Nothing ends a token within its key. -/
theorem endings_of_opensBody {c : Char} (hc : opensBody c = true) (key rest : List Char) :
    endings key (c :: rest) = [] := by
  simp only [opensBody, Bool.and_eq_true, bne_iff_ne] at hc
  simp [endings, defaultings, closings, hc]

theorem attempts_brace (cs : List Char) : attempts ('{' :: cs) =
    if cs.takeWhile opensBody = [] then []
    else endings (cs.takeWhile opensBody) (cs.dropWhile opensBody) := by
  refine flatMap_takings
    (f := fun (key, rest) => if key = [] then [] else endings key rest) (fun key c rest hc => ?_) cs
  dsimp only
  split
  · rfl
  · exact endings_of_opensBody hc key rest

/-- The key of a closed token ends at the first colon, or at the closing brace. -/
theorem key_split {body : List Char} (hbody : '}' ∉ body) (rest : List Char) :
    (body ++ '}' :: rest).takeWhile opensBody = key body ∧
      (body ++ '}' :: rest).dropWhile opensBody = body.dropWhile (· != ':') ++ '}' :: rest := by
  induction body with
  | nil => exact ⟨rfl, rfl⟩
  | cons c body ih =>
    obtain ⟨htake, hdrop⟩ := ih (List.not_mem_of_not_mem_cons hbody)
    have hc : c ≠ '}' := (List.ne_of_not_mem_cons hbody).symm
    by_cases hcolon : c = ':'
    · simp [key, opensBody, hcolon]
    · have hopens : opensBody c = true := by simp [opensBody, hc, hcolon]
      rw [List.cons_append, List.takeWhile_cons_of_pos hopens, List.dropWhile_cons_of_pos hopens,
        htake, hdrop]
      simp [key, hcolon]

/-- There is exactly one way to match a token, and it takes the token apart. -/
theorem attempts_of_token {body rest : List Char}
    (hstarts : StartsToken ('{' :: (body ++ '}' :: rest))) (hbody : '}' ∉ body) :
    attempts ('{' :: (body ++ '}' :: rest)) = [⟨key body, default? body, rest⟩] := by
  obtain ⟨htake, hdrop⟩ := key_split hbody rest
  obtain ⟨c, inner, rfl, hcolon⟩ := (startsToken_iff hbody).1 hstarts
  have hkey : key (c :: inner) ≠ [] := by simp [key, hcolon]
  rw [attempts_brace, htake, hdrop, if_neg hkey, default?]
  cases hafter : (c :: inner).dropWhile (· != ':') with
  | nil => simp [endings, defaultings, closings_of_closed]
  | cons d default =>
    have hd : d = ':' := by
      have hhead := List.head_dropWhile_not (p := (· != ':')) (l := c :: inner) (by simp [hafter])
      simpa [hafter] using hhead
    have hdefault : '}' ∉ default := fun hmem =>
      hbody ((List.dropWhile_suffix _).subset (hafter ▸ List.mem_cons_of_mem d hmem))
    subst hd
    -- Behind a colon the bare match fails, and the longest default is the only one that can be closed.
    rw [List.cons_append, endings, defaultings_colon, closings_of_ne (by decide), List.append_nil]
    have htaken := takeWhile_ne_append hdefault rest
    have hleft := dropWhile_ne_append hdefault rest
    exact (congrArg₂ (fun d r => closings _ (some d) r) htaken hleft).trans (closings_of_closed _ _ _)

/-- A match ends at a closing brace. -/
theorem closed_of_closings {key cs : List Char} {default? : Option (List Char)}
    (h : closings key default? cs ≠ []) : '}' ∈ cs := by
  cases cs with
  | nil => exact absurd rfl h
  | cons c rest =>
    by_cases hc : c = '}'
    · simp [hc]
    · exact absurd (closings_of_ne hc _ _ _) h

theorem closed_of_endings {key cs : List Char} (h : endings key cs ≠ []) : '}' ∈ cs := by
  rcases Decidable.not_and_iff_or_not.1 (mt List.append_eq_nil_iff.2 h) with hdefault | hbare
  · cases cs with
    | nil => exact absurd rfl hdefault
    | cons c rest =>
      by_cases hc : c = ':'
      · subst hc
        rw [defaultings_colon] at hdefault
        exact List.mem_cons_of_mem _
          ((List.dropWhile_suffix isInner).subset (closed_of_closings hdefault))
      · exact absurd (if_neg hc) hdefault
  · exact closed_of_closings hbare

/-- A match takes a token. -/
theorem startsToken_of_attempts {cs : List Char} (h : attempts cs ≠ []) : StartsToken cs := by
  cases cs with
  | nil => exact absurd rfl h
  | cons c cs =>
    by_cases hc : c = '{'
    · subst hc
      rw [attempts_brace] at h
      cases cs with
      | nil => exact absurd rfl h
      | cons d rest =>
        cases hopens : opensBody d with
        | false => simp [hopens] at h
        | true =>
          rw [if_neg (by simp [hopens]), List.dropWhile_cons_of_pos hopens] at h
          have hclosed := (List.dropWhile_suffix opensBody).subset (closed_of_endings h)
          simp only [opensBody, Bool.and_eq_true, bne_iff_ne] at hopens
          exact ⟨d, rest, rfl, hopens.1, hopens.2, hclosed⟩
    · exact absurd (if_neg hc) h

/-! ### The whole search -/

/-- A key and its default make up the text they were taken from. -/
theorem body_of_parts (body rest : List Char) :
    Match.body ⟨key body, default? body, rest⟩ = body := by
  obtain ⟨k, d, hparts⟩ : ∃ k d, Parts body k d := ⟨_, _, parts_iff.2 ⟨rfl, rfl⟩⟩
  obtain ⟨hkey, hdefault⟩ := parts_iff.1 hparts
  rw [← hkey, ← hdefault]
  cases hparts <;> rfl

/-- A search finds the tokens of the decomposition. -/
theorem finds_iff {cs : List Char} {ps : List Piece} : Finds cs ps ↔ Decomposes cs ps := by
  constructor
  · intro h
    induction h with
    | nil => exact .nil
    | @hit cs m others ps hmatch _ ih =>
      obtain ⟨body, rest, rfl, hbody⟩ :=
        (startsToken_of_attempts (hmatch ▸ List.cons_ne_nil m others)).exists_body
      have hstarts := startsToken_of_attempts (hmatch ▸ List.cons_ne_nil m others)
      rw [attempts_of_token hstarts hbody] at hmatch
      cases hmatch
      rw [body_of_parts]
      exact .token hstarts hbody ih
    | miss hmatch _ ih =>
      -- A token that starts here would have been matched.
      refine .literal (fun hstarts => ?_) ih
      obtain ⟨body, rest, heq, hbody⟩ := hstarts.exists_body
      rw [heq] at hmatch hstarts
      simp [attempts_of_token hstarts hbody] at hmatch
  · intro h
    induction h with
    | nil => exact .nil
    | literal hplain _ ih =>
      exact .miss (Classical.not_not.1 fun hmatch => hplain (startsToken_of_attempts hmatch)) ih
    | token hstarts hbody _ ih =>
      have hfound := Finds.hit (attempts_of_token hstarts hbody) ih
      rwa [body_of_parts] at hfound

end Foreach.Template

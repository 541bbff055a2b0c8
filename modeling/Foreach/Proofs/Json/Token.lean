import Foreach.Json.Printer
import Foreach.Json.Token
import Foreach.Proofs.Number.Written

/-!
What is printed is scanned token by token.

Each scalar of a document is one token, whatever stands behind it, only that no number may go on there.
-/

namespace Foreach.Json

open Text (isDigit AllDigits EndsDigits)

/-! ### Numbers -/

/-- A text in front of which a number ends. -/
def EndsNumber (rest : List Char) : Prop :=
  ∀ c ∈ rest.head?, isDigit c = false ∧ c ≠ '.' ∧ c ≠ 'e' ∧ c ≠ 'E'

theorem endsNumber_nil : EndsNumber [] := by
  simp [EndsNumber]

theorem endsNumber_cons {c : Char} {rest : List Char} (hdigit : isDigit c = false) (hpoint : c ≠ '.')
    (hlower : c ≠ 'e') (hupper : c ≠ 'E') : EndsNumber (c :: rest) := by
  simp [EndsNumber, hdigit, hpoint, hlower, hupper]

theorem EndsNumber.endsDigits {rest : List Char} (h : EndsNumber rest) : EndsDigits rest :=
  fun c hc => (h c hc).1

variable {n : Numeral} {rest : List Char}

theorem takeSign_text (hn : n.Proper) : takeSign (n.signText ++ (n.whole ++ rest)) = (n.negative, n.whole ++ rest) := by
  obtain ⟨c, cs, hwhole⟩ := List.ne_nil_iff_exists_cons.1 hn.whole_ne_nil
  have hdigit : isDigit c = true := hn.whole c (by simp [hwhole])
  have hc : c ≠ '-' := by
    rintro rfl
    exact absurd hdigit (by decide)
  unfold Numeral.signText
  cases hsign : n.negative
  · simp only [hwhole, Bool.false_eq_true, if_false, List.nil_append, List.cons_append]
    unfold takeSign
    split
    next heq => exact absurd (List.cons.inj heq).1 hc
    next => rfl
  · rfl

theorem takeFraction_of_ne {cs : List Char} (h : cs.head? ≠ some '.') : takeFraction cs = ([], cs) := by
  unfold takeFraction
  split
  next rest => exact absurd (List.head?_cons (a := '.') (l := rest)) h
  next => rfl

theorem takeFraction_digits {ds : List Char} (hds : AllDigits ds) (hne : ds ≠ []) (hrest : EndsDigits rest) :
    takeFraction ('.' :: (ds ++ rest)) = (ds, rest) := by
  simp only [takeFraction, Text.takeWhile_isDigit hds hrest, Text.dropWhile_isDigit hds hrest]

theorem takeFraction_text (hn : n.Proper) (hrest : EndsDigits rest) (hpoint : rest.head? ≠ some '.') :
    takeFraction (n.fractionText ++ rest) = (n.fraction, rest) := by
  unfold Numeral.fractionText
  split
  next hnil => rw [hnil, List.nil_append, takeFraction_of_ne hpoint]
  next hne => rw [List.cons_append, takeFraction_digits hn.fraction hne hrest]

theorem takeExponent_of_ends (hrest : EndsNumber rest) : takeExponent rest = (none, rest) := by
  unfold takeExponent
  split
  next => rfl
  next mark rest =>
    obtain ⟨-, -, hlower, hupper⟩ := hrest mark rfl
    rw [if_neg (by simp [hlower, hupper])]

theorem takeExponent_digits (negative : Bool) {ds : List Char} (hds : AllDigits ds) (hne : ds ≠ [])
    (hrest : EndsDigits rest) :
    takeExponent ('e' :: (if negative then '-' else '+') :: (ds ++ rest)) =
      (some (Text.signed negative (Text.numeral ds)), rest) := by
  have hsign : takeExponentSign ((if negative then '-' else '+') :: (ds ++ rest)) = (negative, ds ++ rest) := by
    cases negative <;> rfl
  simp only [takeExponent, true_or, if_true, hsign, Text.takeWhile_isDigit hds hrest,
    Text.dropWhile_isDigit hds hrest]
  obtain ⟨c, cs, rfl⟩ := List.ne_nil_iff_exists_cons.1 hne
  rfl

theorem takeExponent_text (hrest : EndsNumber rest) :
    takeExponent (n.exponentText ++ rest) = (n.exponent, rest) := by
  unfold Numeral.exponentText
  cases n.exponent with
  | none => exact takeExponent_of_ends hrest
  | some e =>
    have hne : Text.padded 10 2 e.natAbs ≠ [] := by simp [Text.padded]
    have hvalue : Text.signed (decide (e < 0)) (Text.numeral (Text.padded 10 2 e.natAbs)) = e := by
      rw [Text.numeral_padded, Text.signed]
      simp only [decide_eq_true_eq]
      omega
    have htake := takeExponent_digits (decide (e < 0)) (Text.allDigits_padded 2 e.natAbs) hne
      hrest.endsDigits
    rw [hvalue] at htake
    simpa using htake

/-- What stands behind the whole part of a number ends its digits. -/
theorem endsDigits_exponentText (hrest : EndsNumber rest) : EndsDigits (n.exponentText ++ rest) := by
  unfold Numeral.exponentText
  cases n.exponent with
  | none => exact hrest.endsDigits
  | some e => exact Text.endsDigits_cons (by decide)

theorem endsDigits_fractionText (hrest : EndsDigits rest) : EndsDigits (n.fractionText ++ rest) := by
  unfold Numeral.fractionText
  split
  next => exact hrest
  next => exact Text.endsDigits_cons (by decide)

theorem head?_exponentText (hrest : EndsNumber rest) : (n.exponentText ++ rest).head? ≠ some '.' := by
  unfold Numeral.exponentText
  cases n.exponent with
  | none => exact fun h => (hrest '.' h).2.1 rfl
  | some e => simp

theorem scanNumeral_text (hn : n.Proper) (hrest : EndsNumber rest) :
    scanNumeral (n.text ++ rest) = some (n, rest) := by
  have htext : n.text ++ rest = n.signText ++ (n.whole ++ (n.fractionText ++ (n.exponentText ++ rest))) := by
    simp [Numeral.text]
  have hexponent := endsDigits_exponentText (n := n) hrest
  have hfraction := endsDigits_fractionText (n := n) hexponent
  simp only [htext, scanNumeral, takeSign_text hn, Text.takeWhile_isDigit hn.whole hfraction,
    Text.dropWhile_isDigit hn.whole hfraction, takeFraction_text hn hexponent (head?_exponentText hrest),
    takeExponent_text hrest]
  split
  next hnil => exact absurd hnil hn.whole_ne_nil
  next hzero => exact absurd hzero (hn.whole_ne_zero _ _)
  next => rfl

/-! ### Texts -/

/-- The piece that a character is printed as. -/
def pieceOf (c : Char) : Piece :=
  if c.toNat < 0x20 ∧ c ≠ '\n' ∧ c ≠ '\r' ∧ c ≠ '\t' ∧ c.toNat ≠ 0x0c ∧ c.toNat ≠ 0x08 then .unit c.toNat
  else .char c

theorem hexQuad_padded {k : Nat} (h : k < 0x20) :
    ∃ a b c d, Text.padded 16 4 k = [a, b, c, d] ∧ hexQuad a b c d = some k := by
  have hall : ∀ k < 0x20, Text.padded 16 4 k = ['0', '0', (k / 16).digitChar, (k % 16).digitChar] ∧
      hexQuad '0' '0' (k / 16).digitChar (k % 16).digitChar = some k := by decide
  obtain ⟨htext, hvalue⟩ := hall k h
  exact ⟨_, _, _, _, htext, hvalue⟩

/-- A character with an escape of one letter. -/
theorem scanPieces_letter {e c : Char} {r q : List Char} {ps : List Piece} (hu : e ≠ 'u')
    (he : unescape e = some c) (h : scanPieces r = some (ps, q)) :
    scanPieces ('\\' :: e :: r) = some (.char c :: ps, q) := by
  rw [scanPieces, he, h]
  intro _ _ _ _ _ heq
  exact absurd heq hu

theorem scanPieces_unit {k : Nat} {r q : List Char} {ps : List Piece} (hk : k < 0x20)
    (h : scanPieces r = some (ps, q)) :
    scanPieces ('\\' :: 'u' :: (Text.padded 16 4 k ++ r)) = some (.unit k :: ps, q) := by
  obtain ⟨a, b, c, d, htext, hvalue⟩ := hexQuad_padded hk
  simp only [htext, List.cons_append, List.nil_append, scanPieces, hvalue, h]

theorem scanPieces_self {c : Char} {r q : List Char} {ps : List Piece} (hquote : c ≠ '"')
    (hslash : c ≠ '\\') (hcontrol : ¬c.toNat < 0x20) (h : scanPieces r = some (ps, q)) :
    scanPieces (c :: r) = some (.char c :: ps, q) := by
  rw [scanPieces, if_neg hcontrol, h]
  · exact hquote
  · intro _ _ _ _ _ heq
    exact absurd heq hslash
  · intro _ _ heq
    exact absurd heq hslash

theorem eq_ofNat {c : Char} {k : Nat} (h : c.toNat = k) : c = Char.ofNat k := by
  rw [← h, Char.ofNat_toNat]

theorem scanPieces_escape {c : Char} {r q : List Char} {ps : List Piece} (h : scanPieces r = some (ps, q)) :
    scanPieces (escape c ++ r) = some (pieceOf c :: ps, q) := by
  have hletter {e : Char} (he : unescape e = some c) (hu : e ≠ 'u') (hpiece : pieceOf c = .char c) :
      scanPieces ('\\' :: e :: r) = some (pieceOf c :: ps, q) := by
    rw [hpiece]
    exact scanPieces_letter hu he h
  by_cases hquote : c = '"'
  · subst hquote
    exact hletter (by decide) (by decide) rfl
  by_cases hslash : c = '\\'
  · subst hslash
    exact hletter (by decide) (by decide) rfl
  by_cases hnewline : c = '\n'
  · subst hnewline
    exact hletter (by decide) (by decide) rfl
  by_cases hreturn : c = '\r'
  · subst hreturn
    exact hletter (by decide) (by decide) rfl
  by_cases htab : c = '\t'
  · subst htab
    exact hletter (by decide) (by decide) rfl
  by_cases hfeed : c.toNat = 0x0c
  · obtain rfl := eq_ofNat hfeed
    exact hletter (e := 'f') (by decide) (by decide) rfl
  by_cases hback : c.toNat = 0x08
  · obtain rfl := eq_ofNat hback
    exact hletter (e := 'b') (by decide) (by decide) rfl
  have hrest : escape c = if c.toNat < 0x20 then ['\\', 'u'] ++ Text.padded 16 4 c.toNat else [c] := by
    simp [escape, hquote, hslash, hnewline, hreturn, htab, hfeed, hback]
  rw [hrest]
  split
  next hcontrol =>
    have hpiece : pieceOf c = .unit c.toNat :=
      if_pos ⟨hcontrol, hnewline, hreturn, htab, hfeed, hback⟩
    rw [hpiece, List.append_assoc]
    exact scanPieces_unit hcontrol h
  next hcontrol =>
    have hpiece : pieceOf c = .char c := if_neg fun hall => hcontrol hall.1
    rw [hpiece]
    exact scanPieces_self hquote hslash hcontrol h

theorem scanPieces_flatMap (cs rest : List Char) :
    scanPieces (cs.flatMap escape ++ '"' :: rest) = some (cs.map pieceOf, rest) := by
  induction cs with
  | nil => rfl
  | cons c cs ih =>
    rw [List.flatMap_cons, List.append_assoc, scanPieces_escape ih, List.map_cons]

/-- A control character is no half of another one, so that it stands for itself beside any other. -/
theorem joinPieces_unit {k : Nat} (hk : k < 0x20) (ps : List Piece) :
    joinPieces (.unit k :: ps) = Char.ofNat k :: joinPieces ps := by
  have hcode : Text.charOfCode k = Char.ofNat k := by
    rw [Text.charOfCode, if_neg (by simp [Text.isHighHalf, Text.isLowHalf]; omega)]
  have hhigh : Text.isHighHalf k = false := by
    simp [Text.isHighHalf]
    omega
  rcases ps with _ | ⟨p | low, ps⟩ <;> simp [joinPieces, hhigh, hcode]

theorem joinPieces_pieceOf (c : Char) (ps : List Piece) :
    joinPieces (pieceOf c :: ps) = c :: joinPieces ps := by
  unfold pieceOf
  split
  next hcontrol => rw [joinPieces_unit hcontrol.1, Char.ofNat_toNat]
  next => rw [joinPieces]

theorem joinPieces_map (cs : List Char) : joinPieces (cs.map pieceOf) = cs := by
  induction cs with
  | nil => rfl
  | cons c cs ih => rw [List.map_cons, joinPieces_pieceOf, ih]

/-! ### Tokens -/

theorem scanToken_quoted (cs rest : List Char) :
    scanToken (quoted cs ++ rest) = some (.text (String.ofList cs), rest) := by
  have hpieces := scanPieces_flatMap cs rest
  simp only [quoted, List.cons_append, List.append_assoc, List.nil_append, scanToken]
  rw [hpieces]
  simp [punctuation, joinPieces_map]

theorem ne_of_isDigit {c d : Char} (hc : isDigit c = true) (hd : isDigit d = false) : d ≠ c := by
  rintro rfl
  rw [hc] at hd
  cases hd

theorem punctuation_digit {c : Char} (hc : isDigit c = true) : punctuation c = none := by
  have hne {d : Char} (hd : isDigit d = false) : ¬c = d := (ne_of_isDigit hc hd).symm
  simp (disch := decide) [punctuation, hne]

theorem afterWord_digit {w c : Char} (ws : List Char) {cs : List Char} (hc : isDigit c = true)
    (hw : isDigit w = false) : afterWord (w :: ws) (c :: cs) = none := by
  rw [afterWord, if_neg (ne_of_isDigit hc hw)]

/-- No word begins with a digit. -/
theorem scanWord_digit {c : Char} (cs : List Char) (hc : isDigit c = true) : scanWord (c :: cs) = none := by
  have hword (w : Char) (ws : List Char) : isDigit w = false → afterWord (w :: ws) (c :: cs) = none :=
    afterWord_digit ws hc
  simp (disch := decide) [scanWord, words, hword]

/-- The word that begins with a minus sign has no digit behind it. -/
theorem scanWord_minus {c : Char} (cs : List Char) (hc : isDigit c = true) :
    scanWord ('-' :: c :: cs) = none := by
  have hword (w : Char) (ws : List Char) : isDigit w = false → afterWord (w :: ws) (c :: cs) = none :=
    afterWord_digit ws hc
  simp (disch := decide) [scanWord, words, afterWord.eq_2, hword]

theorem scanToken_numeral (hn : n.Proper) (hrest : EndsNumber rest) :
    scanToken (n.text ++ rest) = some (.scalar (valueOf n), rest) := by
  have hscan := scanNumeral_text hn hrest
  obtain ⟨c, cs, hwhole⟩ := List.ne_nil_iff_exists_cons.1 hn.whole_ne_nil
  have hc : isDigit c = true := hn.whole c (by simp [hwhole])
  have htext : n.text ++ rest = n.signText ++ c :: (cs ++ (n.fractionText ++ (n.exponentText ++ rest))) := by
    simp [Numeral.text, hwhole]
  rw [htext] at hscan ⊢
  unfold Numeral.signText at hscan ⊢
  cases hsign : n.negative
  · simp only [hsign, Bool.false_eq_true, if_false, List.nil_append] at hscan ⊢
    have hquote : c ≠ '"' := (ne_of_isDigit hc (by decide)).symm
    simp [scanToken, punctuation_digit hc, hquote, scanWord_digit _ hc, hscan]
  · simp only [hsign, if_true, List.cons_append, List.nil_append] at hscan ⊢
    have hminus : punctuation '-' = none := by decide
    simp [scanToken, hminus, scanWord_minus _ hc, hscan]

/-- No token begins with a blank. -/
theorem scanToken_space {c : Char} (hc : isSpace c = true) (cs : List Char) : scanToken (c :: cs) = none := by
  have hcases : c = ' ' ∨ c = '\t' ∨ c = '\n' ∨ c = '\r' := by
    simpa [isSpace, or_assoc] using hc
  rcases hcases with rfl | rfl | rfl | rfl <;> rfl

theorem dropWhile_of_scan {cs r : List Char} {t : Token} (h : scanToken cs = some (t, r)) :
    cs.dropWhile isSpace = cs := by
  cases cs with
  | nil => rfl
  | cons c cs =>
    refine List.dropWhile_cons_of_neg fun hc => ?_
    rw [scanToken_space hc] at h
    cases h

/-! A text is blank, or stuck behind its blanks, or has a token there. -/

theorem tokens_blank {cs : List Char} (h : cs.dropWhile isSpace = []) : tokens cs = some [] := by
  rw [tokens]
  split
  next => rfl
  next hcons => rw [h] at hcons; cases hcons

theorem tokens_stuck {cs : List Char} (hne : cs.dropWhile isSpace ≠ [])
    (h : scanToken (cs.dropWhile isSpace) = none) : tokens cs = none := by
  rw [tokens]
  split
  next hnil => exact absurd hnil hne
  next hcons =>
    rw [hcons] at h
    split
    next => rfl
    next hscan => rw [h] at hscan; cases hscan

theorem tokens_scan {cs r : List Char} {t : Token} (h : scanToken (cs.dropWhile isSpace) = some (t, r)) :
    tokens cs = (tokens r).map (t :: ·) := by
  rw [tokens]
  split
  next hnil => rw [hnil] at h; cases h
  next hcons =>
    rw [hcons] at h
    split
    next hscan => rw [h] at hscan; cases hscan
    next hscan =>
      rw [h] at hscan
      cases hscan
      split
      next hts => rw [hts, Option.map_some]
      next hts => rw [hts, Option.map_none]

/-- Tokens begin behind the blanks. -/
theorem tokens_congr {cs ds : List Char} (h : cs.dropWhile isSpace = ds.dropWhile isSpace) :
    tokens cs = tokens ds := by
  by_cases hne : ds.dropWhile isSpace = []
  · rw [tokens_blank hne, tokens_blank (h.trans hne)]
  · cases hscan : scanToken (ds.dropWhile isSpace) with
    | none => rw [tokens_stuck hne hscan, tokens_stuck (h ▸ hne) (h ▸ hscan)]
    | some found =>
      obtain ⟨t, r⟩ := found
      have hscan' : scanToken (cs.dropWhile isSpace) = some (t, r) := by rwa [h]
      rw [tokens_scan hscan, tokens_scan hscan']

theorem tokens_of_spaces {ws : List Char} (hws : ∀ c ∈ ws, isSpace c = true) (cs : List Char) :
    tokens (ws ++ cs) = tokens cs :=
  tokens_congr (List.dropWhile_append_of_pos hws)

end Foreach.Json

import Foreach.Proofs.Text.Cut
import Foreach.Request

/-!
What a request asks for.

The name of a request ends at its first space, so it has none; any other text that is not empty can be
named. A template that neither begins nor ends with a blank or a quote is taken as it is. Any other can be
put between quotes: then just these two are taken off, whatever stands inside them.
-/

namespace Foreach.Request

open Text (Sheds)

variable {text name template : String} {r : Request} {cs ds : List Char} {q : Char}

/-! ### Quotes -/

theorem dropQuote_of_sheds (h : Sheds isQuote cs) : dropQuote cs = cs := by
  cases cs with
  | nil => rfl
  | cons c cs => exact if_neg (by simp [h c (.inl rfl)])

theorem stripQuotes_of_sheds (h : Sheds isQuote cs) : stripQuotes cs = cs := by
  rw [stripQuotes, dropQuote_of_sheds h, dropQuote_of_sheds h.reverse, List.reverse_reverse]

theorem dropQuote_suffix (cs : List Char) : dropQuote cs <:+ cs := by
  cases cs with
  | nil => exact List.suffix_rfl
  | cons c cs =>
    rw [dropQuote]
    split
    · exact List.suffix_cons c cs
    · exact List.suffix_rfl

theorem stripQuotes_isInfix (cs : List Char) : stripQuotes cs <:+: cs := by
  have hend : stripQuotes cs <+: dropQuote cs := by
    rw [stripQuotes, ← List.reverse_suffix, List.reverse_reverse]
    exact dropQuote_suffix _
  exact hend.isInfix.trans (dropQuote_suffix cs).isInfix

/-- One quote is taken off either end, and what stands between them is not looked at. -/
theorem stripQuotes_quoted (hq : isQuote q = true) (cs : List Char) : stripQuotes (q :: (cs ++ [q])) = cs := by
  rw [stripQuotes, dropQuote, if_pos hq, List.reverse_concat, dropQuote, if_pos hq, List.reverse_reverse]

theorem isBlank_of_isQuote (hq : isQuote q = true) : Text.isBlank q = false := by
  simp only [isQuote, Bool.or_eq_true, decide_eq_true_eq] at hq
  obtain rfl | rfl := hq <;> decide

/-! ### Names and templates -/

theorem split_name (hname : ' ' ∉ cs) (ds : List Char) :
    split (cs ++ ' ' :: ds) = (cs, stripQuotes (Text.strip ds)) := by
  have htake : (cs ++ ' ' :: ds).takeWhile notSpace = cs := Text.takeWhile_ne_append hname _
  have hdrop : (cs ++ ' ' :: ds).dropWhile notSpace = ' ' :: ds := Text.dropWhile_ne_append hname _
  rw [split, htake, hdrop, List.drop_one, List.tail_cons]

theorem split_append (hname : ' ' ∉ cs) (hquote : Sheds isQuote ds) (hblank : Sheds Text.isBlank ds) :
    split (cs ++ ' ' :: ds) = (cs, ds) := by
  rw [split_name hname, hblank.strip, stripQuotes_of_sheds hquote]

/-- No blank can be stripped from a quoted template, so none of its own is lost. -/
theorem split_quoted (hname : ' ' ∉ cs) (hq : isQuote q = true) (ds : List Char) :
    split (cs ++ ' ' :: q :: (ds ++ [q])) = (cs, ds) := by
  have hblank : Sheds Text.isBlank (q :: (ds ++ [q])) :=
    .between (isBlank_of_isQuote hq) (isBlank_of_isQuote hq) ds
  rw [split_name hname, hblank.strip, stripQuotes_quoted hq]

theorem space_notMem_split (cs : List Char) : ' ' ∉ (split cs).1 := by
  intro hmem
  have hspace : notSpace ' ' = true := List.mem_takeWhile_imp hmem
  cases hspace

theorem split_isInfix (cs : List Char) : (split cs).2 <:+: cs :=
  (stripQuotes_isInfix _).trans <| (Text.strip_isInfix _).trans <|
    (List.drop_suffix 1 _).isInfix.trans (List.dropWhile_suffix _).isInfix

/-! ### Requests -/

/-- What a text that is accepted asks for. -/
theorem parse_eq_ok_iff : parse text = .ok r ↔ ∃ rest, Text.strip text.toList = '@' :: rest ∧
    split rest = (r.iterable.toList, r.template.toList) ∧ r.iterable ≠ "" ∧ r.template ≠ "" := by
  unfold parse
  split
  next rest hrest =>
    simp only [hrest, List.cons.injEq, true_and, exists_eq_left']
    split
    next template hsplit =>
      refine iff_of_false nofun ?_
      rintro ⟨heq, hname, -⟩
      rw [hsplit] at heq
      exact hname (String.toList_eq_nil_iff.1 (Prod.mk.inj heq).1.symm)
    next name hsplit =>
      refine iff_of_false nofun ?_
      rintro ⟨heq, -, htemplate⟩
      rw [hsplit] at heq
      exact htemplate (String.toList_eq_nil_iff.1 (Prod.mk.inj heq).2.symm)
    next name template hname htemplate hsplit =>
      rw [hsplit]
      constructor
      · rintro ⟨⟩
        have hne : name ≠ [] := hname
        have hne' : template ≠ [] := htemplate
        simp [hne, hne']
      · rintro ⟨heq, -⟩
        obtain ⟨rfl, rfl⟩ := Prod.mk.inj heq
        simp only [String.ofList_toList]
  next hother =>
    refine iff_of_false nofun ?_
    rintro ⟨rest, hrest, -⟩
    exact hother rest hrest

/-- A text that is not accepted is answered with the usage. -/
theorem accepted_or_usage (text : String) : (∃ r, parse text = .ok r) ∨ parse text = .error (.usage usage) := by
  unfold parse
  split
  · split
    · exact .inr rfl
    · exact .inr rfl
    · exact .inl ⟨_, rfl⟩
  · exact .inr rfl

/-- A template that a request takes as it is. -/
structure IsPlain (template : String) : Prop where
  nonempty : template ≠ ""
  unquoted : Sheds isQuote template.toList
  bare : Sheds Text.isBlank template.toList

/-- The input that asks for an iterable and a template. -/
def input (name template : String) : String := "@" ++ name ++ " " ++ template

theorem toList_input (name template : String) :
    (input name template).toList = '@' :: (name.toList ++ ' ' :: template.toList) := by
  simp [input]

theorem sheds_input (htemplate : IsPlain template) : Sheds Text.isBlank (input name template).toList := by
  have hne : template.toList ≠ [] := mt String.toList_eq_nil_iff.1 htemplate.nonempty
  intro c hc
  rw [toList_input] at hc
  rcases hc with hfirst | hlast
  · cases hfirst
    rfl
  · refine htemplate.bare c (.inr ?_)
    rwa [List.getLast?_cons, List.getLast?_append, List.getLast?_cons,
      List.getLast?_eq_some_getLast hne, Option.getD_some, Option.some_or, Option.getD_some,
      ← List.getLast?_eq_some_getLast hne] at hlast

/-- Any name without a space can be asked for. -/
theorem parse_input (hname : name ≠ "") (hspace : ' ' ∉ name.toList) (htemplate : IsPlain template) :
    parse (input name template) = .ok ⟨name, template⟩ := by
  refine parse_eq_ok_iff.2 ⟨_, ?_, split_append hspace htemplate.unquoted htemplate.bare, hname,
    htemplate.nonempty⟩
  rw [(sheds_input htemplate).strip, toList_input]

/-- No request asks for a name with a space. -/
theorem space_notMem_of_parse (h : parse text = .ok r) : ' ' ∉ r.iterable.toList := by
  obtain ⟨rest, -, hsplit, -⟩ := parse_eq_ok_iff.1 h
  have hspace := space_notMem_split rest
  rwa [hsplit] at hspace

/-! ### Requests between quotes -/

/-- A request that some text makes: its name has no space, and neither of its parts is empty. -/
structure Proper (r : Request) : Prop where
  named : r.iterable ≠ ""
  spaceless : ' ' ∉ r.iterable.toList
  asked : r.template ≠ ""

/-- A template between two quotes. -/
def quoted (q : Char) (template : String) : String := String.ofList (q :: (template.toList ++ [q]))

/-- The texts that make a request with its template between quotes. Blanks may stand around them. -/
inductive Quotes (r : Request) : String → Prop
  | surrounded {before after : String} {q : Char} (hquote : isQuote q = true)
      (hbefore : ∀ c ∈ before.toList, Text.isBlank c = true)
      (hafter : ∀ c ∈ after.toList, Text.isBlank c = true) :
      Quotes r (before ++ input r.iterable (quoted q r.template) ++ after)

theorem proper_of_parse (h : parse text = .ok r) : r.Proper := by
  obtain ⟨rest, -, -, hname, htemplate⟩ := parse_eq_ok_iff.1 h
  exact ⟨hname, space_notMem_of_parse h, htemplate⟩

/-- What a template says was said in the text. -/
theorem template_infix_of_parse (h : parse text = .ok r) : r.template.toList <:+: text.toList := by
  obtain ⟨rest, hstrip, hsplit, -⟩ := parse_eq_ok_iff.1 h
  have hrest : rest <:+: text.toList :=
    (List.suffix_cons '@' rest).isInfix.trans (hstrip ▸ Text.strip_isInfix text.toList)
  have htemplate := split_isInfix rest
  rw [hsplit] at htemplate
  exact htemplate.trans hrest

theorem parse_of_quotes (hr : r.Proper) (h : Quotes r text) : parse text = .ok r := by
  obtain @⟨before, after, q, hquote, hbefore, hafter⟩ := h
  have hinput : (input r.iterable (quoted q r.template)).toList =
      '@' :: ((r.iterable.toList ++ ' ' :: q :: r.template.toList) ++ [q]) := by
    simp [toList_input, quoted]
  have hbare : Sheds Text.isBlank ('@' :: ((r.iterable.toList ++ ' ' :: q :: r.template.toList) ++ [q])) :=
    .between rfl (isBlank_of_isQuote hquote) _
  refine parse_eq_ok_iff.2 ⟨_, ?_, split_quoted hr.spaceless hquote r.template.toList, hr.named, hr.asked⟩
  rw [String.toList_append, String.toList_append, List.append_assoc, hinput,
    hbare.strip_surrounded hbefore hafter, List.append_assoc, List.cons_append, List.cons_append]

/-- A request is what its quoted form asks for, whichever quotes it has and whatever blanks stand around it:
every name without a space and every template is taken exactly. A text that is accepted makes such a
request, whose template is a part of the text, so the request can be quoted and made again. Any other text
is answered with the usage. -/
theorem parse_quoted_exact (r : Request) (text : String) :
    (r.Proper → Quotes r text → parse text = .ok r) ∧
      (parse text = .ok r → r.Proper ∧ r.template.toList <:+: text.toList ∧
        ∀ again, Quotes r again → parse again = .ok r) ∧
      ((∃ r, parse text = .ok r) ∨ parse text = .error (.usage usage)) := by
  refine ⟨parse_of_quotes, fun h => ?_, accepted_or_usage text⟩
  exact ⟨proper_of_parse h, template_infix_of_parse h, fun again => parse_of_quotes (proper_of_parse h)⟩

/-- A request whose name has blanks in it, and whose template begins and ends with blanks and with quotes. -/
def edged : Request := ⟨"\ta\u00a0b\n", " '\x7bx\x7d\"\n"⟩

theorem parse_quoted_exact_edged :
    edged.Proper ∧ Quotes edged ("\u2003" ++ input edged.iterable (quoted '"' edged.template) ++ "\n ") ∧
      parse ("\u2003" ++ input edged.iterable (quoted '"' edged.template) ++ "\n ") = .ok edged := by
  have hproper : edged.Proper := ⟨by decide, by decide, by decide⟩
  have hquotes : Quotes edged ("\u2003" ++ input edged.iterable (quoted '"' edged.template) ++ "\n ") :=
    .surrounded rfl (List.all_eq_true.1 (by decide)) (List.all_eq_true.1 (by decide))
  exact ⟨hproper, hquotes, (parse_quoted_exact edged _).1 hproper hquotes⟩

/-- Without quotes around it, a template loses those at its ends. -/
example : (parse (input "a" "'b' or 'c'")).toOption = some ⟨"a", "b' or 'c"⟩ := by decide

end Foreach.Request

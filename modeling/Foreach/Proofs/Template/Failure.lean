import Foreach.Proofs.Template.Rendering

/-!
When a template cannot be filled in.

Only a token that finds a value can go wrong, and it does so just if the value is a container that JSON has no
text for: one that is a mapping with a tuple or bytes among its keys, or has such a mapping inside it. A token
that finds nothing always has a text, which is its default or the token itself.
-/

namespace Foreach.Template

variable {template : String} {vars : Value} {body key : List Char} {default? : Option (List Char)}

/-- A token of the template has this key. -/
def HasKey (template : String) (key : List Char) : Prop :=
  ∃ ps body default?, Decomposes template.toList ps ∧ .token body ∈ ps ∧ Parts body key default?

/-- Some token finds a value that is, or has inside it at any depth, a mapping with a key that JSON has no
text for. -/
def FindsUnwritable (template : String) (vars : Value) : Prop :=
  ∃ key v es k, HasKey template key ∧ Path.lookup vars key = some v ∧ (Value.map es).Inside v ∧
    k ∈ Mapping.keys es ∧ k.IsUnwritable

theorem hasKey_iff : HasKey template key ↔ ∃ body, .token body ∈ pieces template.toList ∧ key = Template.key body := by
  constructor
  · rintro ⟨ps, body, default?, hps, hbody, hparts⟩
    obtain rfl := decomposes_iff.1 hps
    exact ⟨body, hbody, (parts_iff.1 hparts).1⟩
  · rintro ⟨body, hbody, rfl⟩
    exact ⟨_, body, _, decomposes_pieces _, hbody, parts_iff.2 ⟨rfl, rfl⟩⟩

theorem findsUnwritable_iff : FindsUnwritable template vars ↔
    ∃ body v, .token body ∈ pieces template.toList ∧ Path.lookup vars (Template.key body) = some v ∧
      v.HoldsUnwritable := by
  simp only [FindsUnwritable, hasKey_iff, Value.holdsUnwritable_iff]
  constructor
  · rintro ⟨key, v, es, k, ⟨body, hbody, rfl⟩, hlookup, hholds⟩
    exact ⟨body, v, hbody, hlookup, es, k, hholds⟩
  · rintro ⟨body, v, hbody, hlookup, es, k, hholds⟩
    exact ⟨_, v, es, k, ⟨body, hbody, rfl⟩, hlookup, hholds⟩

/-- A token that finds nothing stands for its default or for itself. -/
theorem replaces_of_missing (hparts : Parts body key default?) (hmissing : Path.lookup vars key = none) :
    ∃ text, Replaces vars (.token body) text ∧ (default? = some text ∨ text = verbatim body) := by
  by_cases hdefault : ∀ default, default? = some default → default = []
  · exact ⟨_, .verbatim hparts hmissing hdefault, .inr rfl⟩
  · push Not at hdefault
    obtain ⟨default, rfl, hne⟩ := hdefault
    exact ⟨default, .default hparts hmissing hne, .inl rfl⟩

/-- A template cannot be filled in just if some token finds a container that is, or has inside it, a mapping
with a tuple or bytes for a key, or a day or a moment. The failure is then a mismatch of kinds, and in every
other case there is a text. No token that stands for its default or for itself fails. -/
theorem interpolate_fails_iff (template : String) (vars : Value) :
    (∀ f, interpolate template vars = .error f ↔ f = unprintable ∧ FindsUnwritable template vars) ∧
    ((∃ text, interpolate template vars = .ok text) ↔ ¬FindsUnwritable template vars) ∧
    ∀ body key default?, Parts body key default? → Path.lookup vars key = none →
      ∃ text, Replaces vars (.token body) text ∧ (default? = some text ∨ text = verbatim body) := by
  have hfails : ∀ f, interpolate template vars = .error f ↔ f = unprintable ∧ FindsUnwritable template vars := by
    intro f
    rw [findsUnwritable_iff, interpolate_eq_error_iff]
  refine ⟨hfails, ?_, fun _ _ _ => replaces_of_missing⟩
  constructor
  · rintro ⟨text, htext⟩ hfinds
    cases htext.symm.trans ((hfails unprintable).2 ⟨rfl, hfinds⟩)
  · intro hwritable
    cases hresult : interpolate template vars with
    | ok text => exact ⟨text, rfl⟩
    | error f => exact absurd ((hfails f).1 hresult).2 hwritable

/-- A list with a mapping in it that has bytes for a key. -/
def keyedByBytes : Value := .record [("a", .list [.int 1, .map [(.bytes [0], .null)]]), ("b", .bytes [0xff])]

/-- The list has no text, though its first element has one, and bytes that are no key. -/
theorem interpolate_fails_iff_keyedByBytes :
    (interpolate "\x7ba.0\x7d\x7bb\x7d\x7bc:\x7d" keyedByBytes).toOption = some "1b'\\xff'\x7bc:\x7d" ∧
      FindsUnwritable "\x7bc:d\x7d\x7ba\x7d" keyedByBytes ∧
      interpolate "\x7bc:d\x7d\x7ba\x7d" keyedByBytes = .error unprintable := by
  have hfinds : FindsUnwritable "\x7bc:d\x7d\x7ba\x7d" keyedByBytes := by
    refine ⟨['a'], .list [.int 1, .map [(.bytes [0], .null)]], [(.bytes [0], .null)], .bytes [0], ?_, rfl, ?_,
      List.mem_cons_self, trivial⟩
    · exact hasKey_iff.2 ⟨['a'], by decide +kernel, rfl⟩
    · exact .item (List.mem_cons_of_mem _ List.mem_cons_self) .self
  exact ⟨by decide +kernel, hfinds, ((interpolate_fails_iff _ _).1 unprintable).2 ⟨rfl, hfinds⟩⟩

end Foreach.Template

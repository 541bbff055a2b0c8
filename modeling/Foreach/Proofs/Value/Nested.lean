import Foreach.Value.Basic

/-!
What is inside a value.
-/

namespace Foreach

/-- Induction over what is inside a value. The keys of a mapping have no part in it. -/
theorem Value.nested {motive : Value → Prop} (null : motive .null) (bool : ∀ b, motive (.bool b))
    (int : ∀ n, motive (.int n)) (float : ∀ x, motive (.float x)) (text : ∀ s, motive (.text s))
    (bytes : ∀ bs, motive (.bytes bs)) (date : ∀ d, motive (.date d)) (moment : ∀ t, motive (.moment t))
    (list : ∀ vs, (∀ v ∈ vs, motive v) → motive (.list vs))
    (tuple : ∀ vs, (∀ v ∈ vs, motive v) → motive (.tuple vs))
    (map : ∀ es : List (Key × Value), (∀ e ∈ es, motive e.2) → motive (.map es)) (v : Value) : motive v := by
  refine @Value.rec motive (fun vs => ∀ v ∈ vs, motive v) (fun es => ∀ e ∈ es, motive e.2)
    (fun e => motive e.2) null bool int float text bytes date moment list tuple map ?_ ?_ ?_ ?_ ?_ v
  · exact List.forall_mem_nil _
  · exact fun v vs hv hvs => List.forall_mem_cons.2 ⟨hv, hvs⟩
  · exact List.forall_mem_nil _
  · exact fun e es he hes => List.forall_mem_cons.2 ⟨he, hes⟩
  · exact fun k v hv => hv

/-- A value is another one or stands inside it, at any depth. Keys are not inside a mapping. -/
inductive Value.Inside (w : Value) : Value → Prop
  | self : Inside w w
  | item {vs : List Value} {v : Value} (hmem : v ∈ vs) (hinside : Inside w v) : Inside w (.list vs)
  | part {vs : List Value} {v : Value} (hmem : v ∈ vs) (hinside : Inside w v) : Inside w (.tuple vs)
  | entry {es : List (Key × Value)} {e : Key × Value} (hmem : e ∈ es) (hinside : Inside w e.2) :
      Inside w (.map es)

end Foreach

import Foreach.Value.Mapping

/-!
Equality of values as the program compares them: numbers of any kind by value, mappings without regard
to order. A list is never equal to a tuple.
-/

namespace Foreach.Value

mutual

/-- Whether two values are equal. -/
def same : Value → Value → Bool
  | .null, .null => true
  | .text s, .text t => s == t
  | .bytes a, .bytes b => a == b
  | .date a, .date b => a == b
  | .moment a, .moment b => a.same b
  | .list xs, .list ys => sameAll xs ys
  | .tuple xs, .tuple ys => sameAll xs ys
  | .map es, .map fs => es.length == fs.length && sameEntries es fs
  | .bool a, w => sameNumber (.int a.toNat) w
  | .int a, w => sameNumber (.int a) w
  | .float a, w => sameNumber (.float a) w
  | _, _ => false

def sameAll : List Value → List Value → Bool
  | [], [] => true
  | x :: xs, y :: ys => same x y && sameAll xs ys
  | _, _ => false

/-- Whether every entry of the first mapping is in the second with an equal value. -/
def sameEntries : List (Key × Value) → Mapping → Bool
  | [], _ => true
  | (k, v) :: rest, m =>
    (match Mapping.get? m k with
      | some w => same v w
      | none => false) && sameEntries rest m

def sameNumber (n : Number) (w : Value) : Bool :=
  match w.number? with
  | some m => n.same m
  | none => false

end

end Foreach.Value

import Foreach.Number.Binary64
import Foreach.Timestamp.Basic

/-!
Dynamic values: what items, specs and contexts are made of.

Mappings keep the order in which their keys came. A key is a value that cannot change: a scalar, a byte
string, a day, a moment or a tuple of keys. Numbers are one key if they are equal, whatever their kind:
`1`, `1.0` and `true` are the same key.
-/

namespace Foreach

/-- A key of a mapping. -/
inductive Key where
  | null
  | bool (b : Bool)
  | int (n : Int)
  | float (x : Binary64)
  | text (s : String)
  | bytes (bs : List UInt8)
  | date (d : Calendar.Date)
  | moment (t : Moment)
  | tuple (items : List Key)

/-- A value, of any nesting. -/
inductive Value where
  | null
  | bool (b : Bool)
  | int (n : Int)
  | float (x : Binary64)
  | text (s : String)
  | bytes (bs : List UInt8)
  | date (d : Calendar.Date)
  | moment (t : Moment)
  | list (items : List Value)
  | tuple (items : List Value)
  | map (entries : List (Key × Value))

instance : Inhabited Value := ⟨.null⟩

/-- A mapping, as its entries in order. -/
abbrev Mapping := List (Key × Value)

/-- A number of any kind, for comparison. -/
inductive Number where
  | int (n : Int)
  | float (x : Binary64)

namespace Number

/-- Equality of values, whatever the kinds. -/
def same : Number → Number → Bool
  | .int m, .int n => m == n
  | .int m, .float x => x.isInt m
  | .float x, .int n => x.isInt n
  | .float x, .float y => x.sameValue y

end Number

namespace Key

/-- The number that a key stands for: `false` is zero and `true` is one. -/
def number? : Key → Option Number
  | .bool b => some (.int b.toNat)
  | .int n => some (.int n)
  | .float x => some (.float x)
  | _ => none

mutual

/-- Whether two keys are one key of a mapping. -/
def same : Key → Key → Bool
  | .null, .null => true
  | .text s, .text t => s == t
  | .bytes a, .bytes b => a == b
  | .date a, .date b => a == b
  | .moment a, .moment b => a.same b
  | .tuple xs, .tuple ys => sameAll xs ys
  | .bool a, k => sameNumber (.int a.toNat) k
  | .int a, k => sameNumber (.int a) k
  | .float a, k => sameNumber (.float a) k
  | _, _ => false

def sameAll : List Key → List Key → Bool
  | [], [] => true
  | x :: xs, y :: ys => same x y && sameAll xs ys
  | _, _ => false

def sameNumber (n : Number) (k : Key) : Bool :=
  match k.number? with
  | some m => n.same m
  | none => false

end

mutual

/-- The value that a key is. -/
def toValue : Key → Value
  | .null => .null
  | .bool b => .bool b
  | .int n => .int n
  | .float x => .float x
  | .text s => .text s
  | .bytes bs => .bytes bs
  | .date d => .date d
  | .moment t => .moment t
  | .tuple ks => .tuple (toValues ks)

def toValues : List Key → List Value
  | [] => []
  | k :: ks => toValue k :: toValues ks

end

end Key

namespace Value

mutual

/-- The key that a value can serve as; lists and mappings cannot, nor tuples that hold one. -/
def toKey? : Value → Option Key
  | .null => some .null
  | .bool b => some (.bool b)
  | .int n => some (.int n)
  | .float x => some (.float x)
  | .text s => some (.text s)
  | .bytes bs => some (.bytes bs)
  | .date d => some (.date d)
  | .moment t => some (.moment t)
  | .tuple vs => (toKeys? vs).map .tuple
  | .list _ => none
  | .map _ => none

def toKeys? : List Value → Option (List Key)
  | [] => some []
  | v :: vs =>
    match toKey? v, toKeys? vs with
    | some k, some ks => some (k :: ks)
    | _, _ => none

end

/-- A mapping with a single text key in front of each value. -/
def record (fields : List (String × Value)) : Value :=
  .map (fields.map fun (name, v) => (.text name, v))

def ofNat (n : Nat) : Value := .int n

/-- The number that a value stands for. -/
def number? : Value → Option Number
  | .bool b => some (.int b.toNat)
  | .int n => some (.int n)
  | .float x => some (.float x)
  | _ => none

/-- Whether a value counts as present: not null, not false, not zero and not empty. -/
def isTruthy : Value → Bool
  | .null => false
  | .bool b => b
  | .int n => n != 0
  | .float x => !x.isZero
  | .text s => s != ""
  | .bytes bs => !bs.isEmpty
  | .date _ | .moment _ => true
  | .list vs => !vs.isEmpty
  | .tuple vs => !vs.isEmpty
  | .map es => !es.isEmpty

end Value
end Foreach

import Foreach.Number.Decimal
import Foreach.Text.Literal
import Foreach.Value.Basic

/-!
Values as plain text.

`Value.literal` writes a value as it would be written inside a list; `Value.display` writes a text as
itself, a day and a moment as people read them, and everything else as its literal.
-/

namespace Foreach
namespace Value

/-- The pieces with a separator between them. -/
def joined (separator : List Char) : List (List Char) → List Char
  | [] => []
  | [p] => p
  | p :: ps => p ++ separator ++ joined separator ps

def boolName (b : Bool) : List Char := if b then "True".toList else "False".toList

/-- A tuple of one element keeps a comma. -/
def tupleLiteral (items : List (List Char)) : List Char :=
  match items with
  | [one] => '(' :: one ++ [',', ')']
  | items => '(' :: joined [',', ' '] items ++ [')']

end Value

namespace Key

mutual

def literal : Key → List Char
  | .null => "None".toList
  | .bool b => Value.boolName b
  | .int n => Text.intNumeral n
  | .float x => FloatText.plain.render x
  | .text s => Literal.text s
  | .bytes bs => Literal.bytes bs
  | .date d => d.literal
  | .moment t => t.literal
  | .tuple ks => Value.tupleLiteral (literals ks)

def literals : List Key → List (List Char)
  | [] => []
  | k :: ks => literal k :: literals ks

end

/-- A key as plain text. -/
def display : Key → String
  | .text s => s
  | .date d => String.ofList d.text
  | .moment t => String.ofList t.display
  | k => String.ofList k.literal

end Key

namespace Value

mutual

def literal : Value → List Char
  | .null => "None".toList
  | .bool b => boolName b
  | .int n => Text.intNumeral n
  | .float x => FloatText.plain.render x
  | .text s => Literal.text s
  | .bytes bs => Literal.bytes bs
  | .date d => d.literal
  | .moment t => t.literal
  | .list vs => '[' :: joined [',', ' '] (literals vs) ++ [']']
  | .tuple vs => tupleLiteral (literals vs)
  | .map es => '{' :: joined [',', ' '] (entryLiterals es) ++ ['}']

def literals : List Value → List (List Char)
  | [] => []
  | v :: vs => literal v :: literals vs

def entryLiterals : List (Key × Value) → List (List Char)
  | [] => []
  | (k, v) :: es => (k.literal ++ [':', ' '] ++ literal v) :: entryLiterals es

end

/-- A value as plain text. -/
def display : Value → String
  | .text s => s
  | .date d => String.ofList d.text
  | .moment t => String.ofList t.display
  | v => String.ofList v.literal

/-- The name of a value's kind in messages. -/
def kindName : Value → String
  | .null => "NoneType"
  | .bool _ => "bool"
  | .int _ => "int"
  | .float _ => "float"
  | .text _ => "str"
  | .bytes _ => "bytes"
  | .date _ => "datetime.date"
  | .moment _ => "datetime.datetime"
  | .list _ => "list"
  | .tuple _ => "tuple"
  | .map _ => "dict"

end Value
end Foreach

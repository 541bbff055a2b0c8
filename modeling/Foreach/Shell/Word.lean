/-!
Words of shell commands, and what can be wrong with a command as a text.

Commands are handled byte by byte, each byte as the character with its number. A word is a row of
pieces: characters, quoted or not, and expansions, whose text is known only when the command runs.
-/

namespace Foreach.Shell

/-- What an expansion makes of a parameter and of its own operand. -/
inductive Modifier where
  /-- The operand stands in for a value that is missing. -/
  | fallback
  /-- The operand stands in for a value that is missing, and becomes the value. -/
  | assign
  /-- The operand takes the place of a value that is there. -/
  | instead
  /-- A missing value is an error. -/
  | demand
  /-- The value without what fits the operand at its end, the most of it or the least. -/
  | dropEnd (most : Bool)
  /-- The value without what fits the operand at its start, the most of it or the least. -/
  | dropStart (most : Bool)
  deriving DecidableEq, Repr

/-- Whether the operand is a pattern, in which quotes count anew. -/
def Modifier.isPattern : Modifier → Bool
  | .dropEnd _ | .dropStart _ => true
  | _ => false

/-- A piece of a word. -/
inductive Piece where
  | char (quoted : Bool) (c : Char)
  /-- A pair of quotes with nothing between them. -/
  | empty
  | parameter (quoted : Bool) (name : List Char)
  | length (quoted : Bool) (name : List Char)
  /-- A parameter with a modifier; with `orEmpty` an empty value counts as a missing one. -/
  | modified (quoted : Bool) (name : List Char) (m : Modifier) (orEmpty : Bool) (operand : List Piece)
  /-- What a command writes. Its text begins in a line of the whole, or has lines of its own. -/
  | output (quoted : Bool) (line : Option Nat) (command : List Char)
  /-- The value of an arithmetic expression. -/
  | sum (quoted : Bool) (text : List Piece)
  /-- Braces that hold no expansion, an error when the command runs. -/
  | malformed

abbrev Word := List Piece

namespace Word

/-- A character without quotes. -/
def bareChar? : Piece → Option Char
  | .char false c => some c
  | _ => none

/-- The text of a word without quotes and expansions. -/
def plain? (w : Word) : Option (List Char) := w.mapM bareChar?

/-- The commands whose output stands in a word, each with the line that it begins in. -/
def outputs : List Piece → List (Option Nat × List Char)
  | [] => []
  | .output _ line command :: ps => (line, command) :: outputs ps
  | .modified _ _ _ _ operand :: ps => outputs operand ++ outputs ps
  | .sum _ text :: ps => outputs text ++ outputs ps
  | _ :: ps => outputs ps

end Word

/-- A character that a name may begin with. -/
def isNameStart (c : Char) : Bool := c.isAlpha || c = '_'

def isNameChar (c : Char) : Bool := c.isAlphanum || c = '_'

def isName : List Char → Bool
  | [] => false
  | c :: cs => isNameStart c && cs.all isNameChar

/-- What is wrong with the text of a command. -/
inductive Flaw where
  | openQuote
  | openBackquote
  | openBrace
  | openSum
  | badLoopVariable
  | badFunctionName
  /-- Something stands where it must not, perhaps where something else has to stand. -/
  | unexpected (found : String) (expected : Option String)
  deriving DecidableEq, Repr

def Flaw.message : Flaw → String
  | .openQuote => "Unterminated quoted string"
  | .openBackquote => "EOF in backquote substitution"
  | .openBrace => "Missing '\x7d'"
  | .openSum => "Missing '))'"
  | .badLoopVariable => "Bad for loop variable"
  | .badFunctionName => "Bad function name"
  | .unexpected found none => s!"{found} unexpected"
  | .unexpected found (some expected) => s!"{found} unexpected (expecting {expected})"

end Foreach.Shell

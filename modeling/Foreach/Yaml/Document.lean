import Foreach.Text.Split
import Foreach.Yaml.Meaning
import Foreach.Yaml.Token.Scan

/-!
YAML documents: from a text to its value.

A text is scanned into tokens, the tokens are read as a node, and the node has a value. A text without a
document in it stands for null.
-/

namespace Foreach.Yaml

/-- A character that may stand in a document. -/
def isAllowed (c : Char) : Bool :=
  let n := c.toNat
  n = 0x09 || n = 0x0a || n = 0x0d || (0x20 ≤ n && n ≤ 0x7e) || n = 0x85
    || (0xa0 ≤ n && n != 0xfffe && n != 0xffff)

/-- The value of a text in which every line ends with a line feed. -/
def valueOf (cs : List Char) : Except Defect Value :=
  match Node.ofTokens (Token.scan cs) with
  | .error d => .error d
  | .ok none => .ok .null
  | .ok (some n) => n.value

/-- The value of a document. -/
def read (cs : List Char) : Except Defect Value :=
  if cs.all isAllowed then valueOf (Text.unifyLineEnds cs) else .error .malformed

end Foreach.Yaml

/-!
White space at the ends of a text.

Blanks are the Unicode white space characters together with the four information separators U+001C to
U+001F.
-/

namespace Foreach.Text

def isBlank (c : Char) : Bool :=
  let n := c.toNat
  (0x09 ≤ n && n ≤ 0x0d) || (0x1c ≤ n && n ≤ 0x20) || n = 0x85 || n = 0xa0 || n = 0x1680
    || (0x2000 ≤ n && n ≤ 0x200a) || n = 0x2028 || n = 0x2029 || n = 0x202f || n = 0x205f
    || n = 0x3000

/-- A white space character of Unicode. -/
def isWhite (c : Char) : Bool := isBlank c && !(0x1c ≤ c.toNat && c.toNat ≤ 0x1f)

/-- The characters without those of a class at the end. -/
def dropEndWhile (p : Char → Bool) (cs : List Char) : List Char :=
  (cs.reverse.dropWhile p).reverse

/-- The characters without blanks at either end. -/
def strip (cs : List Char) : List Char := dropEndWhile isBlank (cs.dropWhile isBlank)

def stripText (s : String) : String := String.ofList (strip s.toList)

end Foreach.Text

/-!
The tokens of a template.

A token starts at a `{` that is followed by a character other than `}` and `:`, if some `}` comes later;
it ends at the first one. Everything else stands for itself.
-/

namespace Foreach.Template

/-- A piece of a template: a character, or what stands between the braces of a token. -/
inductive Piece where
  | literal (c : Char)
  | token (body : List Char)
  deriving DecidableEq, Repr

/-- A character that may follow the opening brace of a token. -/
def opensBody (c : Char) : Bool := c != '}' && c != ':'

mutual

/-- The pieces of a template from left to right. -/
def pieces : List Char → List Piece
  | [] => []
  | [c] => [.literal c]
  | c :: d :: rest =>
    if c = '{' && opensBody d then piecesWithin [d] rest else .literal c :: pieces (d :: rest)

/-- The pieces after an opening brace and the characters of `body`, the latest first. If the brace is
never closed, it stands for itself and so does everything after it. -/
def piecesWithin (body : List Char) : List Char → List Piece
  | [] => .literal '{' :: body.reverse.map .literal
  | c :: rest =>
    if c = '}' then .token body.reverse :: pieces rest else piecesWithin (c :: body) rest

end

/-- The key of a token: its text up to the first colon. -/
def key (body : List Char) : List Char := body.takeWhile (· != ':')

/-- The default of a token: its text after the first colon. -/
def default? (body : List Char) : Option (List Char) :=
  match body.dropWhile (· != ':') with
  | [] => none
  | _ :: rest => some rest

/-- The text of a token. -/
def verbatim (body : List Char) : List Char := '{' :: (body ++ ['}'])

end Foreach.Template

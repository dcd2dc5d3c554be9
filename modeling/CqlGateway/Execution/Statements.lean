import CqlGateway.Text.Blank

/-!
# The statements of a text

A semicolon ends a statement unless it stands inside a text literal, a quoted name or a comment.
Comments run from two dashes or two slashes to the end of the line and are dropped; the line break
is kept. Statements are trimmed, and those of which nothing is left are dropped.
-/

namespace CqlGateway.Execution

/-- Where in a text a position is. -/
inductive Place where
  | plain
  | literal
  | quotedName
  | comment
  deriving DecidableEq, Repr

/-- The pieces of a text between its terminators, without comments. The second argument is what
has been read of the current piece, reversed. -/
def pieces : Place → List Char → List Char → List (List Char)
  | .plain, piece, '-' :: '-' :: cs => pieces .comment piece cs
  | .plain, piece, '/' :: '/' :: cs => pieces .comment piece cs
  | .plain, piece, ';' :: cs => piece.reverse :: pieces .plain [] cs
  | .plain, piece, '\x27' :: cs => pieces .literal ('\x27' :: piece) cs
  | .plain, piece, '"' :: cs => pieces .quotedName ('"' :: piece) cs
  | .plain, piece, c :: cs => pieces .plain (c :: piece) cs
  | .literal, piece, '\x27' :: '\x27' :: cs => pieces .literal ('\x27' :: '\x27' :: piece) cs
  | .literal, piece, '\x27' :: cs => pieces .plain ('\x27' :: piece) cs
  | .literal, piece, c :: cs => pieces .literal (c :: piece) cs
  | .quotedName, piece, '"' :: cs => pieces .plain ('"' :: piece) cs
  | .quotedName, piece, c :: cs => pieces .quotedName (c :: piece) cs
  | .comment, piece, '\n' :: cs => pieces .plain ('\n' :: piece) cs
  | .comment, piece, _ :: cs => pieces .comment piece cs
  | _, piece, [] => [piece.reverse]

def statementChars (cs : List Char) : List (List Char) :=
  ((pieces .plain [] cs).map Text.trimChars).filter (!·.isEmpty)

def statements (text : String) : List String :=
  (statementChars text.toList).map String.ofList

end CqlGateway.Execution

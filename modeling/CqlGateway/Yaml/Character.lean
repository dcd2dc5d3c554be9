/-!
# Characters of YAML

A text is a run of lines. A line ends with a line feed, a carriage return, both of them or the
character for a next line, which are all taken for a line feed, or with one of the two separators
of the Unicode Standard, which stand for themselves. Within a line, spaces and tabs are blanks.
-/

namespace CqlGateway.Yaml

/-- Whether a character may stand in a text. -/
def isAllowed (c : Char) : Bool :=
  let n := c.toNat
  n = 0x09 || n = 0x0A || n = 0x0D || (0x20 ≤ n && n ≤ 0x7E) || n = 0x85
    || (0xA0 ≤ n && n ≠ 0xFFFE && n ≠ 0xFFFF)

/-- Characters in which the ends of lines, the two separators aside, are line feeds. -/
def withLineFeeds : List Char → List Char
  | '\r' :: '\n' :: cs => '\n' :: withLineFeeds cs
  | c :: cs => (if c = '\r' || c.toNat = 0x85 then '\n' else c) :: withLineFeeds cs
  | [] => []

/-- What follows the mark that tells the order of bytes. -/
def withoutByteOrder : List Char → List Char
  | c :: cs => if c.toNat = 0xFEFF then cs else c :: cs
  | [] => []

/-- The characters of a text, unless one of them may not stand in a text. -/
def characters? (text : String) : Option (List Char) :=
  let cs := text.toList
  if cs.all isAllowed then some (withLineFeeds (withoutByteOrder cs)) else none

/-- Spaces and tabs. -/
def isBlank (c : Char) : Bool :=
  c = ' ' || c = '\t'

/-- Ends of lines. -/
def isBreak (c : Char) : Bool :=
  c = '\n' || c.toNat = 0x2028 || c.toNat = 0x2029

/-- Whether a blank, the end of the line or the end of the text comes next. -/
def atGap : List Char → Bool
  | [] => true
  | c :: _ => isBlank c || isBreak c

def atLineEnd : List Char → Bool
  | [] => true
  | c :: _ => isBreak c

/-- Whether a mark comes next that is written three times, with a gap behind it. -/
def atMarker (mark : Char) : List Char → Bool
  | a :: b :: c :: rest => a = mark && b = mark && c = mark && atGap rest
  | _ => false

/-- Whether a line starts here that begins or ends a document. -/
def atDocumentMarker (cs : List Char) : Bool :=
  atMarker '-' cs || atMarker '.' cs

/-- Whether a character marks the structure inside brackets. -/
def isFlowMark (c : Char) : Bool :=
  c = ',' || c = '[' || c = ']' || c = '\x7b' || c = '\x7d'

/-- Letters, digits and the two characters that join them in names. -/
def isNameChar (c : Char) : Bool :=
  c.isAlphanum || c = '_' || c = '-'

/-- What follows blanks. -/
def skipBlanks (cs : List Char) : List Char :=
  cs.dropWhile isBlank

/-- What is left from the end of the line on. -/
def skipLine (cs : List Char) : List Char :=
  cs.dropWhile (!isBreak ·)

end CqlGateway.Yaml

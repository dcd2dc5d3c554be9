/-!
# Blank characters

Two notions of white space are in use. `isBlank` is the white space of the Unicode Standard;
names, operators and documents are trimmed with it. `isGap` is the narrower set that separates
the words of a command.
-/

namespace CqlGateway.Text

/-- White space of the Unicode Standard. -/
def isBlank (c : Char) : Bool :=
  let n := c.toNat
  n = 0x20 || (0x09 ≤ n && n ≤ 0x0D) || n = 0x85 || n = 0xA0 || n = 0x1680
    || (0x2000 ≤ n && n ≤ 0x200A) || n = 0x2028 || n = 0x2029 || n = 0x202F || n = 0x205F
    || n = 0x3000

/-- What separates the words of a command: space, tab, line feed, form feed, carriage return. -/
def isGap (c : Char) : Bool :=
  let n := c.toNat
  n = 0x20 || n = 0x09 || n = 0x0A || n = 0x0C || n = 0x0D

/-- The part left once blanks at the front are gone. -/
def trimFront (cs : List Char) : List Char :=
  cs.dropWhile isBlank

/-- The part left once blanks at the end are gone. -/
def trimBack (cs : List Char) : List Char :=
  (cs.reverse.dropWhile isBlank).reverse

/-- The part left once blanks at both ends are gone. -/
def trimChars (cs : List Char) : List Char :=
  trimBack (trimFront cs)

def trim (s : String) : String :=
  String.ofList (trimChars s.toList)

/-- The words of a text that hold no blank, given the part of a word read so far, reversed. -/
def wordsFrom (word : List Char) : List Char → List (List Char)
  | [] => if word.isEmpty then [] else [word.reverse]
  | c :: cs =>
    if isBlank c then
      if word.isEmpty then wordsFrom [] cs else word.reverse :: wordsFrom [] cs
    else
      wordsFrom (c :: word) cs

/-- The maximal runs of characters other than blanks, in order. -/
def words (s : String) : List String :=
  (wordsFrom [] s.toList).map String.ofList

end CqlGateway.Text

import CqlGateway.Text.Blank
import CqlGateway.Text.Case

/-!
# Scanning commands

Small recognisers on characters, each giving what is left of the text. Keywords are read in any
case of letters; a plain word is made of letters, digits and underscores, where the long s and the
Kelvin sign count as letters because they differ from `s` and `k` only in case.
-/

namespace CqlGateway.Text

/-- The rest of a text after a keyword, which is given in small letters. -/
def keyword? : List Char → List Char → Option (List Char)
  | [], cs => some cs
  | _ :: _, [] => none
  | k :: ks, c :: cs => if foldChar c = k then keyword? ks cs else none

/-- The rest of a text after one of some keywords that is followed by a gap, and after that gap. -/
def wordAndGap? (keywords : List String) (cs : List Char) : Option (List Char) :=
  keywords.findSome? fun k => do
    match ← keyword? k.toList cs with
    | c :: rest => if isGap c then some (rest.dropWhile isGap) else none
    | [] => none

/-- The rest of a text after an optional keyword and the gap that follows it. -/
def optionalWord (keyword : String) (cs : List Char) : List Char :=
  (wordAndGap? [keyword] cs).getD cs

/-- Whether nothing is left of a command but gaps and one semicolon. -/
def atCommandEnd (cs : List Char) : Bool :=
  match cs.dropWhile isGap with
  | ';' :: rest => rest.all isGap
  | rest => rest.isEmpty

/-- Whether a character stands for a letter of the plain alphabet up to case. -/
def isPlainLetter (c : Char) : Bool :=
  (foldChar c).isAlpha

def isWordStart (c : Char) : Bool :=
  isPlainLetter c || c = '_'

def isWordChar (c : Char) : Bool :=
  isPlainLetter c || c.isDigit || c = '_'

/-- A plain word at the front of a text, and the rest. -/
def plainWord? : List Char → Option (List Char × List Char)
  | [] => none
  | c :: cs =>
    if isWordStart c then some (c :: cs.takeWhile isWordChar, cs.dropWhile isWordChar) else none

/-- A nonempty text up to the character that closes it, and the rest after that character. -/
def closedBy? (close : Char) (cs : List Char) : Option (List Char × List Char) :=
  match cs.takeWhile (· ≠ close), cs.dropWhile (· ≠ close) with
  | [], _ => none
  | _, [] => none
  | inside, _ :: rest => some (inside, rest)

/-- A name at the front of a text, in quotes or a plain word, and the rest. The quotes are kept. -/
def name? : List Char → Option (List Char × List Char)
  | '\x60' :: cs => (closedBy? '\x60' cs).map fun (s, rest) => ('\x60' :: s ++ ['\x60'], rest)
  | '"' :: cs => (closedBy? '"' cs).map fun (s, rest) => ('"' :: s ++ ['"'], rest)
  | '[' :: cs => (closedBy? ']' cs).map fun (s, rest) => ('[' :: s ++ [']'], rest)
  | cs => plainWord? cs

end CqlGateway.Text

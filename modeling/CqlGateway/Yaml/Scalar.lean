import CqlGateway.Yaml.Basic
import CqlGateway.Yaml.Character

/-!
# Scalars

A scalar is written without quotes, in apostrophes, in quotes, or as a block of lines.

Outside of blocks, lines are folded: a single break between two words is a space, and of more breaks
the first one is dropped. The blanks around a break do not count. The two separators of the Unicode
Standard are never dropped.
-/

namespace CqlGateway.Yaml

/-! ### What lies between words -/

/-- What lies between two words of a scalar. -/
structure Gap where
  /-- The blanks, if there is no break. -/
  blanks : List Char := []
  /-- The breaks. -/
  breaks : List Char := []
  /-- Whether an escaped break comes before all of this. -/
  escaped : Bool := false

namespace Gap

/-- Whether a gap goes over the end of a line. -/
def hasBreak (g : Gap) : Bool :=
  g.escaped || !g.breaks.isEmpty

/-- Whether there is nothing between two characters. -/
def isEmpty (g : Gap) : Bool :=
  !g.hasBreak && g.blanks.isEmpty

def addBlank (g : Gap) (c : Char) : Gap :=
  if g.hasBreak then g else { g with blanks := g.blanks ++ [c] }

def addBreak (g : Gap) (c : Char) : Gap :=
  { g with blanks := [], breaks := g.breaks ++ [c] }

/-- What is left of a gap when lines are folded. -/
def folded (g : Gap) : List Char :=
  if g.escaped then g.breaks
  else
    match g.breaks with
    | [] => g.blanks
    | ['\n'] => [' ']
    | '\n' :: more => more
    | breaks => breaks

end Gap

/-! ### Scalars without quotes -/

/-- Whether a scalar without quotes ends before a character, given what lies before it and what
follows it: before the mark of a value, before a comment, before a line that is not indented enough
or that ends the document, and inside brackets before a mark of their structure. -/
def endsPlain (flow : Bool) (least column : Nat) (gap : Gap) (c : Char) (cs : List Char) : Bool :=
  (!gap.isEmpty && (c = '#' || (!flow && column < least)))
    || (column = 0 && atDocumentMarker (c :: cs))
    || (c = ':' && atGap cs)
    || (flow && (c = '?' || isFlowMark c))

/-- The rest of a scalar without quotes, the gap behind it, and what follows the gap. The lines
after the first are indented by at least so much; a tab within the indentation is a fault. -/
def plain? (flow : Bool) (least : Nat) :
    (column : Nat) → Gap → List Char → Option (List Char × Gap × List Char)
  | _, gap, [] => some ([], gap, [])
  | column, gap, c :: cs =>
    if isBlank c then
      if c = '\t' && gap.hasBreak && column < least then none
      else plain? flow least (column + 1) (gap.addBlank c) cs
    else if isBreak c then plain? flow least 0 (gap.addBreak c) cs
    else if endsPlain flow least column gap c cs then some ([], gap, c :: cs)
    else
      (plain? flow least (column + 1) {} cs).map fun (text, last, rest) =>
        (gap.folded ++ c :: text, last, rest)

/-! ### Scalars in apostrophes and in quotes -/

/-- The rest of a scalar in apostrophes, and what follows it. The flag says whether a line has just
begun. -/
def singleQuoted? : (fresh : Bool) → Gap → List Char → Option (List Char × List Char)
  | _, gap, '\x27' :: '\x27' :: cs =>
    (singleQuoted? false {} cs).map fun (text, rest) => (gap.folded ++ '\x27' :: text, rest)
  | _, gap, '\x27' :: cs => some (gap.folded, cs)
  | fresh, gap, c :: cs =>
    if isBlank c then singleQuoted? false (gap.addBlank c) cs
    else if isBreak c then singleQuoted? true (gap.addBreak c) cs
    else if fresh && atDocumentMarker (c :: cs) then none
    else (singleQuoted? false {} cs).map fun (text, rest) => (gap.folded ++ c :: text, rest)
  | _, _, [] => none

def escapeLetter? (c : Char) : Option Char :=
  match c with
  | '0' => some '\x00'
  | 'a' => some '\x07'
  | 'b' => some '\x08'
  | 't' | '\t' => some '\t'
  | 'n' => some '\n'
  | 'v' => some '\x0b'
  | 'f' => some '\x0c'
  | 'r' => some '\r'
  | 'e' => some '\x1b'
  | ' ' | '"' | '\x27' | '\\' => some c
  | 'N' => some (Char.ofNat 0x85)
  | '_' => some (Char.ofNat 0xA0)
  | 'L' => some (Char.ofNat 0x2028)
  | 'P' => some (Char.ofNat 0x2029)
  | _ => none

/-- The number of digits behind an escape letter. -/
def escapeDigits : Char → Nat
  | 'x' => 2
  | 'u' => 4
  | 'U' => 8
  | _ => 0

/-- The character of a code. -/
def codeChar? (n : Nat) : Option Char :=
  if n.isValidChar then some (Char.ofNat n) else none

/-- The rest of a scalar in quotes, and what follows it. The flag says whether a line has just
begun; the numbers are how many digits of an escape are still to come and the code so far. -/
def doubleQuoted? : (fresh : Bool) → Gap → (due code : Nat) → List Char →
    Option (List Char × List Char)
  | _, _, due + 1, code, c :: cs => do
    let code := code * 16 + (← digit? 16 c)
    if due = 0 then
      let char ← codeChar? code
      let (text, rest) ← doubleQuoted? false {} 0 0 cs
      return (char :: text, rest)
    else doubleQuoted? false {} due code cs
  | _, gap, 0, _, '"' :: cs => some (gap.folded, cs)
  | _, gap, 0, _, '\\' :: c :: cs => do
    if isBreak c then
      let (text, rest) ← doubleQuoted? true { escaped := true } 0 0 cs
      return (gap.folded ++ text, rest)
    else if escapeDigits c = 0 then
      let char ← escapeLetter? c
      let (text, rest) ← doubleQuoted? false {} 0 0 cs
      return (gap.folded ++ char :: text, rest)
    else
      let (text, rest) ← doubleQuoted? false {} (escapeDigits c) 0 cs
      return (gap.folded ++ text, rest)
  | fresh, gap, 0, _, c :: cs =>
    if isBlank c then doubleQuoted? false (gap.addBlank c) 0 0 cs
    else if isBreak c then doubleQuoted? true (gap.addBreak c) 0 0 cs
    else if fresh && atDocumentMarker (c :: cs) then none
    else (doubleQuoted? false {} 0 0 cs).map fun (text, rest) => (gap.folded ++ c :: text, rest)
  | _, _, _, _, [] => none

/-! ### Blocks of lines -/

/-- What becomes of the breaks at the end of a block. -/
inductive Chomping where
  /-- None is kept. -/
  | strip
  /-- The one at the end of the last line is kept. -/
  | clip
  /-- All are kept. -/
  | keep
  deriving DecidableEq, Repr

/-- The sign for what becomes of the last breaks. -/
def chomping? : Char → Option Chomping
  | '-' => some .strip
  | '+' => some .keep
  | _ => none

/-- The digit for the indentation of a block, and what follows it. There need not be one, but it
is not zero. -/
def blockIncrement? : List Char → Option (Nat × List Char)
  | '0' :: _ => none
  | c :: cs => if c.isDigit then some (c.toNat - 48, cs) else some (0, c :: cs)
  | [] => some (0, [])

/-- The sign and the digit behind the mark of a block in either order, and what follows them. -/
def blockSigns? (cs : List Char) : Option (Chomping × Nat × List Char) :=
  match cs.head?.bind chomping? with
  | some chomping => (blockIncrement? cs.tail).map fun (n, rest) => (chomping, n, rest)
  | none =>
    (blockIncrement? cs).map fun (n, rest) =>
      match if n = 0 then none else rest.head?.bind chomping? with
      | some chomping => (chomping, n, rest.tail)
      | none => (.clip, n, rest)

/-- What follows the first line of a block, which holds no more than a comment. -/
def afterBlockLine? (cs : List Char) : Option (List Char) :=
  match skipBlanks cs with
  | '#' :: rest => some (skipLine rest).tail
  | rest => if atLineEnd rest then some rest.tail else none

/-- The greatest indentation of lines up to the first that is not empty. -/
def blockIndentation? : (column most : Nat) → List Char → Option Nat
  | column, most, ' ' :: cs => blockIndentation? (column + 1) most cs
  | _, _, '\t' :: _ => none
  | column, most, c :: cs =>
    if isBreak c then blockIndentation? 0 (max most column) cs else some (max most column)
  | column, most, [] => some (max most column)

/-- What stands between two lines of a block: the break that ends the first, and the breaks of the
empty lines after it. -/
structure BlockGap where
  first : Option Char := none
  others : List Char := []
  /-- Whether the first line starts with a blank. -/
  blank : Bool := false

/-- What is left of the breaks before a line that starts with a character. Folding keeps them
around lines that start with a blank. -/
def BlockGap.folded (g : BlockGap) (literal : Bool) (c : Char) : List Char :=
  if !literal && g.first = some '\n' && !g.blank && !isBlank c then
    if g.others.isEmpty then [' '] else g.others
  else g.first.toList ++ g.others

/-- What is left of the breaks at the end of a block. -/
def BlockGap.chomped (g : BlockGap) : Chomping → List Char
  | .strip => []
  | .clip => g.first.toList
  | .keep => g.first.toList ++ g.others

/-- The lines of a block of the given indentation, the breaks behind the last of them, and what
follows. The column is given where indentation is being read. -/
def blockLines? (literal : Bool) (indent : Nat) :
    (column : Option Nat) → BlockGap → List Char → Option (List Char × BlockGap × List Char)
  | _, gap, [] => some ([], gap, [])
  | none, gap, c :: cs =>
    if isBreak c then blockLines? literal indent (some 0) { gap with first := some c } cs
    else
      (blockLines? literal indent none gap cs).map fun (text, last, rest) =>
        (c :: text, last, rest)
  | some column, gap, c :: cs =>
    if isBreak c then
      blockLines? literal indent (some 0) { gap with others := gap.others ++ [c] } cs
    else if indent ≤ column then
      (blockLines? literal indent none { blank := isBlank c } cs).map fun (text, last, rest) =>
        (gap.folded literal c ++ c :: text, last, rest)
    else if c = ' ' then blockLines? literal indent (some (column + 1)) gap cs
    else if c = '\t' then none
    else some ([], gap, c :: cs)

/-- The block behind its mark, and what follows it. The level is one more than the indentation
around it. -/
def block? (literal : Bool) (level : Nat) (cs : List Char) : Option (List Char × List Char) := do
  let (chomping, increment, rest) ← blockSigns? cs
  let body ← afterBlockLine? rest
  let indent ←
    if increment = 0 then (blockIndentation? 0 0 body).map fun most => max (max most level) 1
    else some (level - 1 + increment)
  let (text, last, rest) ← blockLines? literal indent (some 0) {} body
  return (text ++ last.chomped chomping, rest)

end CqlGateway.Yaml

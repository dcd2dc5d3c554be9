import CqlGateway.Yaml.Scalar
import CqlGateway.Yaml.Token

/-!
# Reading tokens

Whether a scalar is a key shows only at the colon behind it. So the place of a token that may turn
out to be a key is remembered, for every open bracket apart, and when the colon comes, the mark of
a key is put in there. A key stands on one line and is not longer than 1024 characters.

Outside of brackets the indentation tells the structure: a key or an item that is indented deeper
than the block around it begins a block, and a line that is indented less ends one. A key that
stands at the indentation of its block has to be followed by a colon.
-/

namespace CqlGateway.Yaml

/-! ### Positions -/

structure Cursor where
  rest : List Char
  index : Nat := 0
  line : Nat := 0
  column : Nat := 0

namespace Cursor

def pass (p : Cursor) (c : Char) : Cursor :=
  if isBreak c then { p with index := p.index + 1, line := p.line + 1, column := 0 }
  else { p with index := p.index + 1, column := p.column + 1 }

/-- The characters between a position and the given rest of the text. -/
def passed (p : Cursor) (rest : List Char) : List Char :=
  p.rest.take (p.rest.length - rest.length)

/-- The position at which the given rest of the text starts. -/
def moveTo (p : Cursor) (rest : List Char) : Cursor :=
  { (p.passed rest).foldl pass p with rest := rest }

end Cursor

/-! ### The way to the next token -/

/-- Where one is on the way to the next token. -/
inductive Approach where
  | between
  | comment
  /-- Behind a comment that is followed by another one. -/
  | betweenComments
  deriving DecidableEq, Repr

/-- Whether nothing but empty lines separates this place from a comment. -/
def beforeComment (cs : List Char) : Bool :=
  (cs.dropWhile fun c => isBlank c || isBreak c).head? = some '#'

/-- The next token, and whether a key may start there. Outside of brackets, a tab where a key may
start is no blank, except before a comment that follows another one. -/
def approach (flow : Bool) : Approach → (keyAllowed : Bool) → List Char → Bool × List Char
  | _, keyAllowed, [] => (keyAllowed, [])
  | .comment, keyAllowed, c :: cs =>
    if !isBreak c then approach flow .comment keyAllowed cs
    else if beforeComment cs then approach flow .betweenComments keyAllowed cs
    else approach flow .between (keyAllowed || !flow) cs
  | .betweenComments, keyAllowed, c :: cs =>
    approach flow (if c = '#' then .comment else .betweenComments) keyAllowed cs
  | .between, keyAllowed, c :: cs =>
    if c = ' ' || (c = '\t' && (flow || !keyAllowed)) then approach flow .between keyAllowed cs
    else if c = '#' then approach flow .comment keyAllowed cs
    else if isBreak c then approach flow .between (keyAllowed || !flow) cs
    else (keyAllowed, c :: cs)

/-- What follows a comment on the same line. -/
def afterLineComment (cs : List Char) : List Char :=
  match skipBlanks cs with
  | '#' :: rest => skipLine rest
  | _ => cs

/-- Whether a token reaches to the start of a line. -/
def reachesNextLine (passed : List Char) : Bool :=
  (passed.reverse.dropWhile isBlank).head?.any isBreak

/-! ### The state of reading -/

/-- A token that may turn out to be a key. -/
structure Candidate where
  /-- How many tokens come before it. -/
  number : Nat
  index : Nat
  line : Nat
  column : Nat
  /-- Whether it has to be a key. -/
  required : Bool

/-- Whether a candidate may still be a key at a position. -/
def Candidate.isLive (k : Candidate) (p : Cursor) : Bool :=
  k.line = p.line && p.index ≤ k.index + 1024

structure Lexer where
  cursor : Cursor
  /-- The tokens so far, the last one first. -/
  tokens : List Token := []
  /-- The candidate of each open bracket, the innermost first, and the one outside of brackets. -/
  candidates : List (Option Candidate) := [none]
  /-- Whether a key may start here. -/
  keyAllowed : Bool := true
  /-- The columns of the open blocks, the innermost first, each one counted from one. -/
  levels : List Nat := []

namespace Lexer

def inFlow (s : Lexer) : Bool :=
  1 < s.candidates.length

/-- The column of the innermost block counted from one, zero if there is none. -/
def level (s : Lexer) : Nat :=
  s.levels.headD 0

def emit (t : Token) (s : Lexer) : Lexer :=
  { s with tokens := t :: s.tokens }

/-- Put a token in before which there are so many. -/
def insert (number : Nat) (t : Token) (s : Lexer) : Lexer :=
  { s with tokens := s.tokens.insertIdx (s.tokens.length - number) t }

def goTo (rest : List Char) (s : Lexer) : Lexer :=
  { s with cursor := s.cursor.moveTo rest }

/-- Go on behind so many characters. -/
def skip (count : Nat) (s : Lexer) : Lexer :=
  s.goTo (s.cursor.rest.drop count)

/-- Say whether a key may start here. -/
def allowKey (allowed : Bool) (s : Lexer) : Lexer :=
  { s with keyAllowed := allowed }

def setCandidate (k : Option Candidate) (s : Lexer) : Lexer :=
  { s with candidates := k :: s.candidates.tail }

/-- Give up the innermost candidate, unless it has to be a key. -/
def dropCandidate? (s : Lexer) : Option Lexer :=
  match s.candidates.head?.join with
  | some k => if k.required then none else some (s.setCandidate none)
  | none => some s

/-- Take the next token for a candidate, if a key may start here. -/
def noteCandidate? (s : Lexer) : Option Lexer :=
  if s.keyAllowed then
    s.dropCandidate?.map fun s =>
      let p := s.cursor
      s.setCandidate (some {
        number := s.tokens.length, index := p.index, line := p.line, column := p.column,
        required := !s.inFlow && s.level = p.column + 1 })
  else some s

/-- The levels that are left when those above the given one are ended. -/
def levelsUpTo (least : Nat) (levels : List Nat) : List Nat :=
  levels.dropWhile (least < ·)

/-- End the blocks that are indented deeper than the given level. -/
def endBlocks (least : Nat) (s : Lexer) : Lexer :=
  if s.inFlow then s
  else
    let kept := levelsUpTo least s.levels
    { s with
      levels := kept
      tokens := List.replicate (s.levels.length - kept.length) Token.blockEnd ++ s.tokens }

/-- Begin a block at a column, unless one has begun there, before the token with the given
number. -/
def beginBlock (column number : Nat) (t : Token) (s : Lexer) : Lexer :=
  if !s.inFlow && s.level ≤ column then
    { s.insert number t with levels := (column + 1) :: s.levels }
  else s

/-! ### Single tokens -/

/-- The end of the text. -/
def readEnd? (s : Lexer) : Option Lexer :=
  (s.endBlocks 0).dropCandidate?.map fun s => (s.allowKey false).emit .streamEnd

/-- A line that tells something about the documents. -/
def readDirective? (s : Lexer) : Option Lexer := do
  let s ← (s.endBlocks 0).dropCandidate?
  let (t, rest) ← directive? s.cursor.rest.tail
  return ((s.allowKey false).goTo rest).emit t

/-- A line that begins or ends a document. -/
def readMarker? (t : Token) (s : Lexer) : Option Lexer :=
  (s.endBlocks 0).dropCandidate?.map fun s => ((s.allowKey false).skip 3).emit t

def readOpening? (t : Token) (s : Lexer) : Option Lexer :=
  s.noteCandidate?.map fun s =>
    { (s.skip 1).emit t with candidates := none :: s.candidates, keyAllowed := true }

def readClosing? (t : Token) (s : Lexer) : Option Lexer :=
  s.dropCandidate?.map fun s =>
    { (s.skip 1).emit t with
      candidates := if s.inFlow then s.candidates.tail else s.candidates
      keyAllowed := false }

def readComma? (s : Lexer) : Option Lexer :=
  s.dropCandidate?.map fun s => ((s.skip 1).allowKey true).emit .comma

/-- The mark of an item. -/
def readItem? (s : Lexer) : Option Lexer :=
  if !s.inFlow && !s.keyAllowed then none
  else
    (s.beginBlock s.cursor.column s.tokens.length .blockSequence).dropCandidate?.map fun s =>
      ((s.skip 1).allowKey true).emit .item

/-- The mark of a key that is set off from its value. -/
def readKey? (s : Lexer) : Option Lexer :=
  if !s.inFlow && !s.keyAllowed then none
  else
    (s.beginBlock s.cursor.column s.tokens.length .blockMapping).dropCandidate?.map fun s =>
      ((s.skip 1).allowKey (!s.inFlow)).emit .key

/-- The mark of a value whose key is a candidate. -/
def readValueOf (k : Candidate) (s : Lexer) : Lexer :=
  let s := (s.insert k.number .key).beginBlock k.column k.number .blockMapping
  (((s.setCandidate none).allowKey false).skip 1).emit .value

/-- The mark of a value whose key is set off from it, or left out. -/
def readLoneValue? (s : Lexer) : Option Lexer :=
  if !s.inFlow && !s.keyAllowed then none
  else
    let s := s.beginBlock s.cursor.column s.tokens.length .blockMapping
    some (((s.allowKey (!s.inFlow)).skip 1).emit .value)

/-- The mark of a value. -/
def readValue? (s : Lexer) : Option Lexer :=
  match s.candidates.head?.join with
  | some k =>
    if k.isLive s.cursor then some (s.readValueOf k)
    else if k.required then none
    else (s.setCandidate none).readLoneValue?
  | none => s.readLoneValue?

/-- A token that may be a key, given the token and what follows it. -/
def readCandidate? (found : Option (Token × List Char)) (s : Lexer) : Option Lexer := do
  let s ← s.noteCandidate?
  let (t, rest) ← found
  return ((s.allowKey false).goTo rest).emit t

/-- A block of lines. -/
def readBlock? (literal : Bool) (s : Lexer) : Option Lexer := do
  let s ← s.dropCandidate?
  let (text, rest) ← block? literal s.level s.cursor.rest.tail
  return ((s.allowKey true).goTo rest).emit (.scalar true (String.ofList text))

/-- A scalar in quotes, given its text and what follows it. -/
def quotedToken (found : List Char × List Char) : Token × List Char :=
  (.scalar true (String.ofList found.1), found.2)

/-- A scalar without quotes. A key may start behind it if it reaches to the next line. -/
def readPlain? (s : Lexer) : Option Lexer := do
  let s ← s.noteCandidate?
  let (text, gap, rest) ← plain? s.inFlow s.level s.cursor.column {} s.cursor.rest
  return ((s.allowKey gap.hasBreak).goTo rest).emit (.scalar false (String.ofList text))

/-- Whether a scalar without quotes may begin here. -/
def beginsPlain (flow : Bool) : List Char → Bool
  | [] => false
  | c :: cs =>
    if c = '-' then !(cs.head?.any isBlank)
    else if c = '?' || c = ':' then !flow && !atGap cs
    else !isBlank c && !isFlowMark c && !("#&*!|>'\"%@\x60".toList.contains c)

/-- The token that starts with a character, which is given with what follows it. -/
def readToken? (c : Char) (cs : List Char) (s : Lexer) : Option Lexer :=
  match c with
  | '[' => s.readOpening? .openBracket
  | '\x7b' => s.readOpening? .openBrace
  | ']' => s.readClosing? .closeBracket
  | '\x7d' => s.readClosing? .closeBrace
  | ',' => s.readComma?
  | '*' => s.readCandidate? ((anchorName? cs).map fun (name, rest) => (.reference name, rest))
  | '&' => s.readCandidate? ((anchorName? cs).map fun (name, rest) => (.anchor name, rest))
  | '!' => s.readCandidate? (tag? (c :: cs))
  | '\x27' => s.readCandidate? ((singleQuoted? false {} cs).map quotedToken)
  | '"' => s.readCandidate? ((doubleQuoted? false {} 0 0 cs).map quotedToken)
  | _ =>
    if c = '-' && atGap cs then s.readItem?
    else if c = '?' && (s.inFlow || atGap cs) then s.readKey?
    else if c = ':' && (s.inFlow || atGap cs) then s.readValue?
    else if c = '|' && !s.inFlow then s.readBlock? true
    else if c = '>' && !s.inFlow then s.readBlock? false
    else if beginsPlain s.inFlow (c :: cs) then s.readPlain?
    else none

/-- Pass over a comment that stands on the same line behind a token, given the characters of the
token. No comment belongs to the mark of an item. -/
def passComment (passed : List Char) (s : Lexer) : Lexer :=
  if s.tokens.head? = some .item || reachesNextLine passed then s
  else s.goTo (afterLineComment s.cursor.rest)

def next? (s : Lexer) : Option Lexer :=
  let (keyAllowed, rest) := approach s.inFlow .between s.keyAllowed s.cursor.rest
  let s := (s.goTo rest).allowKey keyAllowed
  let s := s.endBlocks (s.cursor.column + 1)
  match rest with
  | [] => s.readEnd?
  | c :: cs =>
    if s.cursor.column = 0 && c = '%' then s.readDirective?
    else if s.cursor.column = 0 && atMarker '-' rest then s.readMarker? .documentStart
    else if s.cursor.column = 0 && atMarker '.' rest then s.readMarker? .documentEnd
    else
      (s.readToken? c cs).map fun t => t.passComment (s.cursor.passed t.cursor.rest)

/-! ### All tokens -/

/-- The tokens that can be used although reading cannot go on. A token is given out only when two
more are known, and when it is settled whether it is a key. -/
def usable (s : Lexer) : List Token :=
  let waiting := s.candidates.filterMap fun k => k.filter (·.isLive s.cursor)
  s.tokens.reverse.take ((waiting.map (·.number)).foldl min (s.tokens.length - 2))

/-- All tokens up to the end of the text or, without that end, up to a fault. The fuel is more than
the number of characters. -/
def readAll : (fuel : Nat) → Lexer → List Token
  | 0, s => s.usable
  | fuel + 1, s =>
    match s.next? with
    | none => s.usable
    | some t => if t.tokens.head? = some .streamEnd then t.tokens.reverse else readAll fuel t

end Lexer

/-- The tokens of characters. If they end without the token for the end of the text, the text is
malformed there. -/
def tokens (cs : List Char) : List Token :=
  Lexer.readAll (cs.length + 1) { cursor := { rest := cs } }

end CqlGateway.Yaml

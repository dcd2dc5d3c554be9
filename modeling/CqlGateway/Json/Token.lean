/-!
# Tokens of JSON text

The scanner reads one character at a time. Between tokens it skips blanks; inside a text, a
number or a word it collects characters until the token ends. A code escape of a text stands for
a UTF-16 unit; two units that form a surrogate pair stand for one character, and a unit that is
left alone stands for the replacement character.
-/

namespace CqlGateway.Json

inductive Token where
  | openBrace
  | closeBrace
  | openBracket
  | closeBracket
  | comma
  | colon
  | text (value : String)
  | number (literal : String)
  | bool (value : Bool)
  | null
  deriving DecidableEq, Repr

/-- What a text is made of: characters, and the UTF-16 units of code escapes. -/
inductive Piece where
  | char (value : Char)
  | unit (code : Nat)
  deriving DecidableEq, Repr

/-- The character of a surrogate pair. -/
def pairChar? (high low : Nat) : Option Char :=
  if 0xD800 ≤ high ∧ high < 0xDC00 ∧ 0xDC00 ≤ low ∧ low < 0xE000 then
    some (Char.ofNat (0x10000 + (high - 0xD800) * 0x400 + (low - 0xDC00)))
  else
    none

/-- The character of a UTF-16 unit that is not part of a pair. -/
def unitChar (code : Nat) : Char :=
  if 0xD800 ≤ code ∧ code < 0xE000 then Char.ofNat 0xFFFD else Char.ofNat code

/-- The characters of a text, given the unit that comes before its pieces, if one is pending. -/
def charsFrom : Option Nat → List Piece → List Char
  | none, [] => []
  | some u, [] => [unitChar u]
  | none, .char c :: ps => c :: charsFrom none ps
  | some u, .char c :: ps => unitChar u :: c :: charsFrom none ps
  | none, .unit v :: ps => charsFrom (some v) ps
  | some u, .unit v :: ps =>
    match pairChar? u v with
    | some c => c :: charsFrom none ps
    | none => unitChar u :: charsFrom (some v) ps

def textOf (pieces : List Piece) : String :=
  String.ofList (charsFrom none pieces)

/-! ### Numbers -/

inductive NumberState where
  | start
  | minus
  | zero
  | whole
  | point
  | fraction
  | exponent
  | exponentSign
  | power

def NumberState.next? : NumberState → Char → Option NumberState
  | .start, c =>
    if c = '-' then some .minus else if c = '0' then some .zero
    else if c.isDigit then some .whole else none
  | .minus, c => if c = '0' then some .zero else if c.isDigit then some .whole else none
  | .zero, c => if c = '.' then some .point else if c = 'e' || c = 'E' then some .exponent else none
  | .whole, c =>
    if c.isDigit then some .whole else if c = '.' then some .point
    else if c = 'e' || c = 'E' then some .exponent else none
  | .point, c => if c.isDigit then some .fraction else none
  | .fraction, c =>
    if c.isDigit then some .fraction else if c = 'e' || c = 'E' then some .exponent else none
  | .exponent, c =>
    if c = '+' || c = '-' then some .exponentSign else if c.isDigit then some .power else none
  | .exponentSign, c => if c.isDigit then some .power else none
  | .power, c => if c.isDigit then some .power else none

/-- Whether a number may end here. -/
def NumberState.isFinal : NumberState → Bool
  | .zero | .whole | .fraction | .power => true
  | _ => false

def isNumber (cs : List Char) : Bool :=
  match cs.foldlM NumberState.next? .start with
  | some s => s.isFinal
  | none => false

/-! ### The scanner -/

/-- Where the scanner stands. What is collected is kept in reverse. -/
inductive Mode where
  | between
  | inText (pieces : List Piece)
  | inEscape (pieces : List Piece)
  | inCode (pieces : List Piece) (digits code : Nat)
  | inNumber (chars : List Char)
  | inWord (chars : List Char)

/-- The scanner's place and the tokens read so far, in reverse. -/
structure Scan where
  mode : Mode
  tokens : List Token

/-- The value of a hexadecimal digit. -/
def hexValue? (c : Char) : Option Nat :=
  if '0' ≤ c && c ≤ '9' then some (c.toNat - 48)
  else if 'a' ≤ c && c ≤ 'f' then some (c.toNat - 87)
  else if 'A' ≤ c && c ≤ 'F' then some (c.toNat - 55)
  else none

/-- The character that an escape letter stands for. -/
def escaped? (c : Char) : Option Char :=
  match c with
  | '"' => some '"'
  | '\\' => some '\\'
  | '/' => some '/'
  | 'b' => some '\x08'
  | 'f' => some '\x0c'
  | 'n' => some '\n'
  | 'r' => some '\r'
  | 't' => some '\t'
  | _ => none

/-- Characters that number tokens are made of. -/
def inNumbers (c : Char) : Bool :=
  c.isDigit || c = '-' || c = '+' || c = '.' || c = 'e' || c = 'E'

/-- The token that a collected word or number makes. -/
def collected? : Mode → Option Token
  | .inNumber cs => if isNumber cs.reverse then some (.number (String.ofList cs.reverse)) else none
  | .inWord cs =>
    if cs.reverse = "true".toList then some (.bool true)
    else if cs.reverse = "false".toList then some (.bool false)
    else if cs.reverse = "null".toList then some .null
    else none
  | _ => none

def begin? (tokens : List Token) (c : Char) : Option Scan :=
  match c with
  | ' ' | '\t' | '\n' | '\r' => some ⟨.between, tokens⟩
  | '\x7b' => some ⟨.between, .openBrace :: tokens⟩
  | '\x7d' => some ⟨.between, .closeBrace :: tokens⟩
  | '[' => some ⟨.between, .openBracket :: tokens⟩
  | ']' => some ⟨.between, .closeBracket :: tokens⟩
  | ',' => some ⟨.between, .comma :: tokens⟩
  | ':' => some ⟨.between, .colon :: tokens⟩
  | '"' => some ⟨.inText [], tokens⟩
  | _ =>
    if c.isDigit || c = '-' then some ⟨.inNumber [c], tokens⟩
    else if c.isLower then some ⟨.inWord [c], tokens⟩
    else none

def Scan.step? (s : Scan) (c : Char) : Option Scan :=
  match s.mode with
  | .between => begin? s.tokens c
  | .inText ps =>
    if c = '"' then some ⟨.between, .text (textOf ps.reverse) :: s.tokens⟩
    else if c = '\\' then some ⟨.inEscape ps, s.tokens⟩
    else if c.toNat < 0x20 then none
    else some ⟨.inText (.char c :: ps), s.tokens⟩
  | .inEscape ps =>
    if c = 'u' then some ⟨.inCode ps 0 0, s.tokens⟩
    else (escaped? c).map fun e => ⟨.inText (.char e :: ps), s.tokens⟩
  | .inCode ps digits code =>
    (hexValue? c).map fun d =>
      if digits = 3 then ⟨.inText (.unit (code * 16 + d) :: ps), s.tokens⟩
      else ⟨.inCode ps (digits + 1) (code * 16 + d), s.tokens⟩
  | .inNumber cs =>
    if inNumbers c then some ⟨.inNumber (c :: cs), s.tokens⟩
    else (collected? s.mode).bind fun t => begin? (t :: s.tokens) c
  | .inWord cs =>
    if c.isLower then some ⟨.inWord (c :: cs), s.tokens⟩
    else (collected? s.mode).bind fun t => begin? (t :: s.tokens) c

/-- The tokens read once the text has ended. -/
def Scan.finish? (s : Scan) : Option (List Token) :=
  match s.mode with
  | .between => some s.tokens.reverse
  | .inNumber _ | .inWord _ => (collected? s.mode).map fun t => (t :: s.tokens).reverse
  | _ => none

/-- The tokens of a text, unless the text has a part that is no token. -/
def tokens? (cs : List Char) : Option (List Token) :=
  (cs.foldlM Scan.step? ⟨.between, []⟩).bind Scan.finish?

end CqlGateway.Json

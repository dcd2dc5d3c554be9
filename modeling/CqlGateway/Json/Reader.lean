import CqlGateway.Json.Basic
import CqlGateway.Json.Token
import CqlGateway.Text.Blank
import CqlGateway.Text.Quoted
import CqlGateway.Text.Utf8

/-!
# Reading JSON text

The reader folds over the tokens with a stack of the arrays and objects that are still open. A
text is a document when all of it is one value; values may be nested ten thousand deep.

Of what can be wrong with a text, an escape that does not exist is told apart: the report shows
it.
-/

namespace CqlGateway.Json

/-- An array or object that is still open, its content in reverse. The name of an object is the
one whose value is being read. -/
inductive Frame where
  | array (items : List Json)
  | object (members : List (String × Json)) (name : String)

/-- What may come next. -/
inductive Phase where
  | value
  /-- A value, or the end of an array without items. -/
  | firstItem
  /-- A name, or the end of an object without members. -/
  | firstName
  | name
  | colon
  /-- A comma, or the end of the open array or object. -/
  | next
  /-- Nothing: the document is complete. -/
  | finished (value : Json)

structure Build where
  frames : List Frame
  phase : Phase

/-- How deep arrays and objects may be nested. -/
def depthLimit : Nat := 10000

def place (frames : List Frame) (v : Json) : Build :=
  match frames with
  | [] => ⟨[], .finished v⟩
  | .array items :: rest => ⟨.array (v :: items) :: rest, .next⟩
  | .object members name :: rest => ⟨.object ((name, v) :: members) name :: rest, .next⟩

def nest? (frames : List Frame) (frame : Frame) (phase : Phase) : Option Build :=
  if frames.length < depthLimit then some ⟨frame :: frames, phase⟩ else none

def beginValue? (frames : List Frame) : Token → Option Build
  | .null => some (place frames .null)
  | .bool b => some (place frames (.bool b))
  | .number n => some (place frames (.number n))
  | .text s => some (place frames (.text s))
  | .openBracket => nest? frames (.array []) .firstItem
  | .openBrace => nest? frames (.object [] "") .firstName
  | _ => none

/-- Close the array or object that was opened last. -/
def close? (frames : List Frame) (t : Token) : Option Build :=
  match frames, t with
  | .array items :: rest, .closeBracket => some (place rest (.array items.reverse))
  | .object members _ :: rest, .closeBrace => some (place rest (.object members.reverse))
  | _, _ => none

def beginMember? (frames : List Frame) : Token → Option Build
  | .text s =>
    match frames with
    | .object members _ :: rest => some ⟨.object members s :: rest, .colon⟩
    | _ => none
  | _ => none

def Build.step? (b : Build) (t : Token) : Option Build :=
  match b.phase with
  | .value => beginValue? b.frames t
  | .firstItem =>
    match t with
    | .closeBracket => close? b.frames t
    | _ => beginValue? b.frames t
  | .firstName =>
    match t with
    | .closeBrace => close? b.frames t
    | _ => beginMember? b.frames t
  | .name => beginMember? b.frames t
  | .colon =>
    match t with
    | .colon => some ⟨b.frames, .value⟩
    | _ => none
  | .next =>
    match t, b.frames with
    | .comma, .array _ :: _ => some ⟨b.frames, .value⟩
    | .comma, .object _ _ :: _ => some ⟨b.frames, .name⟩
    | _, _ => close? b.frames t
  | .finished _ => none

def ofTokens? (ts : List Token) : Option Json :=
  (ts.foldlM Build.step? ⟨[], .value⟩).bind fun b =>
    match b.phase with
    | .finished v => some v
    | _ => none

/-- The document that a text spells, unless the text is malformed. -/
def read? (s : String) : Option Json :=
  (tokens? s.toList).bind ofTokens?

/-! ### What is wrong with a text -/

inductive Fault where
  /-- The text is no JSON text, or a value in it is not of the kind that is wanted. -/
  | malformed
  /-- The first thing wrong with the text is an escape. The bytes of the escape are the characters
  and the bytes of a character that was cut off. -/
  | badEscape (whole : List Char) (cut : List UInt8)
  deriving DecidableEq, Repr

/-- Characters that can stand between backticks in a message. -/
def Fault.isShown (c : Char) : Bool :=
  c ≠ '\x60' && c.toNat ≠ 0xFFFD && !Text.isBlank c && Text.isPrintable c

def Fault.message : Fault → String
  | .malformed => "<json error>"
  | .badEscape whole cut =>
    let shown :=
      if cut.isEmpty && whole.all isShown then '\x60' :: whole ++ ['\x60']
      else '"' :: whole.flatMap Text.quoteChar
        ++ cut.flatMap (fun b => '\\' :: 'x' :: Text.hex 2 b.toNat) ++ ['"']
    "invalid escape sequence " ++ String.ofList shown ++ " in string"

/-- The bytes that a bad escape covers: two, or six if it gives a code. -/
def escapeSize : List Char → Nat
  | _ :: 'u' :: _ => 6
  | _ => 2

/-- The report of the bad escape that a text starts with. -/
def escapeFault (cs : List Char) : Fault :=
  let whole := Text.takeBytes (escapeSize cs) cs
  let cut :=
    match cs.drop whole.length with
    | c :: _ => (String.utf8EncodeChar c).take (escapeSize cs - Text.byteLength whole)
    | [] => []
  .badEscape whole cut

/-- Where the scanner first fails, if it fails at an escape: its state, and the text from the
escape on. The second argument is the text from the last backslash on. -/
def Scan.badEscape? (s : Scan) (mark : List Char) : List Char → Option (Scan × List Char)
  | [] => none
  | c :: cs =>
    let mark := if c = '\\' && s.mode matches .inText _ then c :: cs else mark
    match s.step? c with
    | some next => next.badEscape? mark cs
    | none =>
      match s.mode with
      | .inEscape _ | .inCode _ _ _ => some (s, mark)
      | _ => none

/-- The fault of a text that is no document. A bad escape counts only where a text may stand. -/
def faultOf (cs : List Char) : Fault :=
  match Scan.badEscape? ⟨.between, []⟩ [] cs with
  | none => .malformed
  | some (s, mark) =>
    let build := s.tokens.reverse.foldlM Build.step? ⟨[], .value⟩
    match build.bind fun b => b.step? (.text "") with
    | some _ => escapeFault mark
    | none => .malformed

/-- The document that a text spells, or what is wrong with the text. -/
def read (s : String) : Except Fault Json :=
  match read? s with
  | some v => .ok v
  | none => .error (faultOf s.toList)

end CqlGateway.Json

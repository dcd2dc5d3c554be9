import CqlGateway.Json.Basic
import CqlGateway.Text.Quoted

/-!
# Writing JSON text

Documents are written without blanks. Besides quotes, backslashes and control characters, the
writer escapes the characters that have a meaning in markup and the two line separators, so that
a document can stand inside a page or a script.
-/

namespace CqlGateway.Json

def escapeLetter? (c : Char) : Option Char :=
  match c.toNat with
  | 0x08 => some 'b'
  | 0x09 => some 't'
  | 0x0A => some 'n'
  | 0x0C => some 'f'
  | 0x0D => some 'r'
  | _ => none

/-- Characters that are written by their code. -/
def writtenByCode (c : Char) : Bool :=
  c.toNat < 0x20 || c = '<' || c = '>' || c = '&' || c.toNat = 0x2028 || c.toNat = 0x2029

/-- A character as it is written inside a text. -/
def escapeChar (c : Char) : List Char :=
  if c = '"' || c = '\\' then ['\\', c]
  else match escapeLetter? c with
    | some letter => ['\\', letter]
    | none => if writtenByCode c then '\\' :: 'u' :: Text.hex 4 c.toNat else [c]

def writeText (s : String) : String :=
  String.ofList ('"' :: s.toList.flatMap escapeChar ++ ['"'])

mutual

def write : Json → String
  | .null => "null"
  | .bool true => "true"
  | .bool false => "false"
  | .number literal => literal
  | .text s => writeText s
  | .array items => "[" ++ String.intercalate "," (writeItems items) ++ "]"
  | .object members => "\x7b" ++ String.intercalate "," (writeMembers members) ++ "\x7d"

def writeItems : List Json → List String
  | [] => []
  | v :: vs => write v :: writeItems vs

def writeMembers : List (String × Json) → List String
  | [] => []
  | (name, v) :: ms => (writeText name ++ ":" ++ write v) :: writeMembers ms

end

end CqlGateway.Json

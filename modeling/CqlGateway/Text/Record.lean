import CqlGateway.Text.Utf8

/-!
# Records of fields

A record is a line of fields with commas between them. A field in quotes may hold commas, line
breaks and quotes, which are written twice there; outside of such a field no quote may stand.
Empty lines in front of the record are passed over, and what follows it is not looked at. A fault
is told with its line and with its column, which counts bytes.
-/

namespace CqlGateway.Text

inductive RecordFault where
  | absent
  | bareQuote (start line column : Nat)
  | strayQuote (start line column : Nat)
  deriving DecidableEq, Repr

/-- A place in a record that starts at some line. -/
def placeText (start line column : Nat) : String :=
  (if start = line then "" else "record on line " ++ toString start ++ "; ")
    ++ "parse error on line " ++ toString line ++ ", column " ++ toString column ++ ": "

def RecordFault.message : RecordFault → String
  | .absent => "EOF"
  | .bareQuote start line column =>
    placeText start line column ++ "bare \" in non-quoted field"
  | .strayQuote start line column =>
    placeText start line column ++ "extraneous or missing \" in quoted-field"

inductive FieldState where
  | start
  | plain
  | quoted
  /-- Behind a quote in a field in quotes. -/
  | closing
  deriving DecidableEq, Repr

/-- Line breaks in one form. -/
def withPlainBreaks : List Char → List Char
  | '\r' :: '\n' :: cs => '\n' :: withPlainBreaks cs
  | ['\r'] => []
  | c :: cs => c :: withPlainBreaks cs
  | [] => []

/-- The fields of a record from a place on, with the field so far in reverse. -/
def fieldsFrom (first : Nat) :
    (line column : Nat) → FieldState → List Char → List Char → Except RecordFault (List String)
  | _, _, .start, field, [] => .ok [String.ofList field.reverse]
  | _, _, .plain, field, [] => .ok [String.ofList field.reverse]
  | _, _, .closing, field, [] => .ok [String.ofList field.reverse]
  | line, column, .quoted, _, [] => .error (.strayQuote first line column)
  | line, column, state, field, c :: cs =>
    match state with
    | .quoted =>
      if c = '"' then fieldsFrom first line (column + 1) .closing field cs
      else if c = '\n' && !cs.isEmpty then fieldsFrom first (line + 1) 1 .quoted (c :: field) cs
      else fieldsFrom first line (column + c.utf8Size) .quoted (c :: field) cs
    | _ =>
      if c = ',' then
        (fieldsFrom first line (column + 1) .start [] cs).map (String.ofList field.reverse :: ·)
      else if c = '\n' then .ok [String.ofList field.reverse]
      else
        match state with
        | .start =>
          if c = '"' then fieldsFrom first line (column + 1) .quoted [] cs
          else fieldsFrom first line (column + c.utf8Size) .plain [c] cs
        | .closing =>
          if c = '"' then fieldsFrom first line (column + 1) .quoted ('"' :: field) cs
          else .error (.strayQuote first line (column - 1))
        | _ =>
          if c = '"' then .error (.bareQuote first line column)
          else fieldsFrom first line (column + c.utf8Size) .plain (c :: field) cs

/-- The fields of the first record, given the number of the line. -/
def firstRecord : (line : Nat) → List Char → Except RecordFault (List String)
  | _, [] => .error .absent
  | line, '\n' :: cs => firstRecord (line + 1) cs
  | line, cs => fieldsFrom line line 1 .start [] cs

/-- The fields that a text gives. The empty text gives none. -/
def record (s : String) : Except RecordFault (List String) :=
  if s = "" then .ok [] else firstRecord 1 (withPlainBreaks s.toList)

end CqlGateway.Text

import CqlGateway.Execution.Coordinator
import CqlGateway.Number.Decimal
import CqlGateway.Text.Sorted
import CqlGateway.Text.Width

/-!
# Rows on display

A result is shown as a framed table, with the names of the columns centred, numbers aligned at the
right and other cells at the left, and below it the number of rows.
-/

namespace CqlGateway

namespace Json

/-- A number on display: an integer in full, any other number as a floating-point number. -/
def displayNumber (literal : String) : String :=
  match Integer64.read? literal with
  | some n => toString n
  | none =>
    match Binary64.read? literal with
    | some x => x.render .display
    | none => literal

mutual

def display : Json → String
  | .null => "<nil>"
  | .bool b => if b then "true" else "false"
  | .number literal => displayNumber literal
  | .text s => s
  | .array items => "[" ++ String.intercalate " " (displayItems items) ++ "]"
  | .object members =>
    let shown := displayMembers members
    let names := Text.sortOnce (shown.map (·.1))
    let last (name : String) : String := ((shown.reverse.lookup name).getD "")
    "map[" ++ String.intercalate " " (names.map fun name => name ++ ":" ++ last name) ++ "]"

def displayItems : List Json → List String
  | [] => []
  | item :: rest => item.display :: displayItems rest

def displayMembers : List (String × Json) → List (String × String)
  | [] => []
  | (name, value) :: rest => (name, value.display) :: displayMembers rest

end

end Json

namespace Execution

/-! ### Cells -/

def isDigits (cs : List Char) : Bool :=
  !cs.isEmpty && cs.all Char.isDigit

/-- Whether a text is a whole number without sign, plain or with commas between groups of three
digits. -/
def isGrouped (s : String) : Bool :=
  match s.splitOn "," with
  | [] => false
  | [digits] => isDigits digits.toList
  | first :: groups =>
    isDigits first.toList && first.length ≤ 3
      && groups.all fun g => isDigits g.toList && g.length = 3

/-- Whether a text is a decimal number without sign. -/
def isUnsignedDecimal (s : String) : Bool :=
  match s.splitOn "." with
  | [whole] => isGrouped whole
  | [whole, fraction] => isGrouped whole && isDigits fraction.toList
  | _ => false

def isDecimal (cell : String) : Bool :=
  match (Text.trim cell).toList with
  | '-' :: cs => isUnsignedDecimal (String.ofList cs)
  | cs => isUnsignedDecimal (String.ofList cs)

def blanks (n : Nat) : String :=
  String.ofList (List.replicate n ' ')

/-- A text in the middle of a width. -/
def centred (n : Nat) (s : String) : String :=
  let gap := n - Text.width s
  blanks (gap / 2) ++ s ++ blanks (gap - gap / 2)

/-- A cell in a width: a number at the right, anything else at the left. -/
def aligned (n : Nat) (cell : String) : String :=
  let gap := blanks (n - Text.width cell)
  if isDecimal cell then gap ++ cell else cell ++ gap

def cellText (row : List (String × Json)) (column : String) : String :=
  match Json.lookup? column row with
  | none | some .null => "NULL"
  | some v => v.display

/-! ### Tables -/

/-- The lines of the cells of one row. -/
abbrev CellLines := List (List String)

def cellLines (cells : List String) : CellLines :=
  cells.map (·.splitOn "\n")

def height (row : CellLines) : Nat :=
  (row.map List.length).foldl max 0

/-- The width of a cell: that of its widest line. -/
def cellWidth (lines : List String) : Nat :=
  (lines.map Text.width).foldl max 0

def columnWidths (heading : CellLines) (rows : List CellLines) : List Nat :=
  rows.foldl (fun widths row => widths.zipWith max (row.map cellWidth)) (heading.map cellWidth)

def ruleLine (widths : List Nat) : String :=
  "+" ++ String.join (widths.map fun n => String.ofList (List.replicate (n + 2) '-') ++ "+") ++ "\n"

/-- The lines of a row. Cells with fewer lines than the highest one are filled up. -/
def rowLines (place : Nat → String → String) (filling : String) (widths : List Nat)
    (row : CellLines) : String :=
  String.join ((List.range (height row)).map fun i =>
    "|" ++ String.join (row.zipWith (fun lines n =>
      " " ++ place n (lines.getD i filling) ++ " |") widths) ++ "\n")

/-- A whole number with commas between groups of three digits. -/
def withCommas (n : Nat) : String :=
  let rec groups : List Char → List Char
    | a :: b :: c :: d :: rest => a :: b :: c :: ',' :: groups (d :: rest)
    | cs => cs
  String.ofList (groups (toString n).toList.reverse).reverse

def countLine (n : Nat) : String :=
  "(" ++ withCommas n ++ " rows)\n"

def ResultSet.frame (r : ResultSet) : String :=
  let heading := cellLines r.columns
  let rows := r.rows.map fun row => cellLines (r.columns.map (cellText row))
  let widths := columnWidths heading rows
  let rule := ruleLine widths
  rule
    ++ (if heading.isEmpty then "" else rowLines centred "" widths heading ++ rule)
    ++ String.join (rows.map (rowLines aligned "  " widths))
    ++ rule

def ResultSet.display (r : ResultSet) : String :=
  r.frame ++ countLine r.rows.length

end Execution

end CqlGateway

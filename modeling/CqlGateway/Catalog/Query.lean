import CqlGateway.Failure
import CqlGateway.Number.Integer64

/-!
# Queries on a relational catalog

What a relational database tells about its tables comes as rows of cells. A query may fail, and
rows may break off with a failure after the last one. A cell is read as a text, a number or a
flag; a cell that does not hold what is read from it is a failure as well.
-/

namespace CqlGateway.Catalog

inductive Cell where
  | null
  | integer (value : Int)
  | flag (value : Bool)
  | text (value : String)
  deriving DecidableEq, Repr

namespace Cell

/-- The text of a cell; there is none in an empty cell. -/
def text? : Cell → Option String
  | .null => none
  | .integer n => some (toString n)
  | .flag b => some (if b then "true" else "false")
  | .text s => some s

def integer? (c : Cell) : Option Int :=
  c.text?.bind Integer64.read?

/-- The texts that stand for a flag that is set. -/
def trueTexts : List String := ["1", "t", "T", "TRUE", "true", "True"]

/-- The texts that stand for a flag that is not set. -/
def falseTexts : List String := ["0", "f", "F", "FALSE", "false", "False"]

def flagOfText? (s : String) : Option Bool :=
  if trueTexts.contains s then some true
  else if falseTexts.contains s then some false
  else none

def flag? : Cell → Option Bool
  | .null => none
  | .flag b => some b
  | .integer n => if n = 1 then some true else if n = 0 then some false else none
  | .text s => flagOfText? s

end Cell

inductive Query where
  | tables
  | columns (table : String)
  | indexes (table : String)
  | indexColumns (index : String)
  | foreignKeys (table : String)
  | definition (table : String)
  deriving DecidableEq, Repr

structure QueryRows where
  rows : List (List Cell) := []
  /-- What goes wrong after the last row. -/
  failure? : Option Failure := none
  deriving DecidableEq, Repr

/-- A cell that does not hold what is read from it. -/
def scanFailure : Failure :=
  .foreign "<scan error>"

/-- A failure in a context, which may be empty. -/
def inContext (context : String) (f : Failure) : Failure :=
  if context = "" then f else .wrapped context f

def scanRows {α : Type} (context : String) (scan : List Cell → Option α) :
    List (List Cell) → Except Failure (List α)
  | [] => .ok []
  | row :: rest =>
    match scan row with
    | none => .error (inContext context scanFailure)
    | some a =>
      match scanRows context scan rest with
      | .ok as => .ok (a :: as)
      | .error f => .error f

/-- Read an answer by a function for one row. -/
def QueryRows.scan {α : Type} (r : QueryRows) (context : String) (scan : List Cell → Option α) :
    Except Failure (List α) :=
  match scanRows context scan r.rows, r.failure? with
  | .error f, _ => .error f
  | .ok _, some f => .error f
  | .ok as, none => .ok as

/-- A row of one text. -/
def scanText : List Cell → Option String
  | [c] => c.text?
  | _ => none

end CqlGateway.Catalog

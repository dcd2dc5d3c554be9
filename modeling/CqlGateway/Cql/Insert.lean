import CqlGateway.Cql.Expression
import CqlGateway.Statement.Basic
import CqlGateway.Statement.ExprReader

/-!
# Insertions in CQL

The rows of an insertion come as a list of rows, as a single row, or in a wrapper around either.
One row gives one statement, and several rows give a batch of one statement each.
-/

namespace CqlGateway

namespace Insert

/-- Whether a node has the shape of a row. -/
def isRow (n : Node) : Bool :=
  n.items?.isSome || n.type = TermKind.list.name

/-- Whether nodes are rows, at least one. -/
def areRows (ns : List Node) : Bool :=
  !ns.isEmpty && ns.all isRow

/-- The cells of a row, none of which may be a query. -/
def plainCells (cells : List Expr) : Except Rejection (List Expr) :=
  if cells.any (·.kind? = some .subquery) then .error .insertedQuery else .ok cells

def cells (n : Node) : Except Rejection (List Expr) :=
  match n with
  | .expr e => plainCells e.items
  | _ => do
    let e ← Expr.ofNode n
    if e.kind? = some .list then plainCells e.items else return [e]

/-- The rows of a node that has the shape of a row: it is a list of rows or a row itself. -/
def rowsOfList (n : Node) : Except Rejection (List (List Expr)) := do
  let inner :=
    match n with
    | .expr e => e.items.map .expr
    | _ => n.items?.getD []
  if areRows inner then inner.mapM cells else return [← cells n]

def rowsOfPlain (n : Node) : Except Rejection (List (List Expr)) :=
  if isRow n then rowsOfList n else .error (.unknownValueList n.typeName)

mutual

def rows : Node → Except Rejection (List (List Expr))
  | .null => .ok []
  | .expr .missing => .ok []
  | .expr (.of t) =>
    if t.kind = .subquery then .error .insertedQuery else rowsOfPlain (.expr (.of t))
  | .object members =>
    let type := Node.objectType members
    if type = "values" then rowsOfMember members
    else if Node.isQueryType type || (Node.lookup? "ast" members).isSome then
      .error .insertedQuery
    else
      rowsOfPlain (.object members)
  | n => rowsOfPlain n

/-- The rows that the last member called `values` describes. -/
def rowsOfMember : List (String × Node) → Except Rejection (List (List Expr))
  | [] => .ok []
  | (key, n) :: rest =>
    if key = "values" && (Node.lookup? "values" rest).isNone then rows n else rowsOfMember rest

end

def batchDisclaimer : String :=
  "-- Batch is not atomic: rows in different partitions may be applied independently."

def batchCql (statements : List String) : String :=
  batchDisclaimer ++ "\nBEGIN BATCH\n"
    ++ String.join (statements.map fun s => "  " ++ s ++ ";\n") ++ "APPLY BATCH;"

def rowCql (s : Insert) (number : Nat) (row : List Expr) : Draft String := do
  Draft.rejectIf (row.length ≠ s.columns.length)
    (.rowWidth number s.table.dotted row.length s.columns.length)
  let values ← Draft.each Expr.valueCql row
  return "INSERT INTO " ++ s.table.cql ++ " (" ++ Cql.quoteIdentifiers s.columns ++ ") VALUES "
    ++ Expr.enclosed "(" ")" values

/-- The statements for rows, given the number of the first. -/
def rowsCql (s : Insert) (number : Nat) : List (List Expr) → Draft (List String)
  | [] => pure []
  | row :: rest => do return (← rowCql s number row) :: (← rowsCql s (number + 1) rest)

def cql (s : Insert) : Draft String := do
  Draft.rejectIf (s.table.name = "") (.noTarget "INSERT")
  Draft.rejectIf s.query.isSome .insertedQuery
  Draft.rejectIf s.columns.isEmpty (.noColumnList s.table.dotted)
  let rows ← Draft.ofExcept (rows s.values)
  Draft.rejectIf rows.isEmpty (.noRows s.table.dotted)
  match ← rowsCql s 1 rows with
  | [statement] => return statement
  | statements => do
    Draft.warn (.expandedRows statements.length)
    return batchCql statements

end Insert

end CqlGateway

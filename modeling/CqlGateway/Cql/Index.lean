import CqlGateway.Cql.IndexName
import CqlGateway.Cql.Keyspace

/-!
# Indexes in CQL

An index covers a single column, the first that the statement names. Of an index over an
expression, the first column that occurs in the expression is indexed.
-/

namespace CqlGateway

namespace IndexColumn

/-- What a column of an index is called in messages. -/
def label (c : IndexColumn) : String :=
  if c.name ≠ "" then c.name
  else match c.expr with
    | .of t => if t.kind = .column then t.column else "the first expression"
    | .missing => "the first expression"

def namedColumn? (t : Term) : Option String :=
  if t.kind = .column && t.column ≠ "" && t.column ≠ "*" then some t.column else none

def firstColumn (e : Expr) : Draft String :=
  match e.terms.findSome? namedColumn? with
  | some column => do
    Draft.warn (.functionalIndex column)
    return column
  | none => Draft.reject .indexWithoutColumn

def resolve (c : IndexColumn) : Draft String := do
  Draft.warnIf c.desc .indexOrder
  if c.name ≠ "" then
    return c.name
  match c.expr with
  | .missing => Draft.reject .emptyIndexElement
  | .of t =>
    if t.kind = .column && t.column ≠ "" then return t.column else firstColumn (.of t)

end IndexColumn

def CreateIndex.cql (s : CreateIndex) : Draft String := do
  Draft.rejectIf (s.table.name = "") .noIndexTable
  match s.columns.getD [] with
  | [] => Draft.reject (.noIndexColumn s.table.dotted)
  | first :: rest => do
    Draft.warnIf s.unique .uniqueIndex
    Draft.warnIf (!rest.isEmpty) (.singleColumnIndex first.label)
    Draft.warnIf s.filter.isPresent .partialIndex
    Draft.warnIf (!s.included.isEmpty) .includedColumns
    let column ← first.resolve
    return "CREATE INDEX " ++ optionalText s.ifNotExists "IF NOT EXISTS "
      ++ optionalText (s.name ≠ "") (Cql.quoteIdentifier s.name ++ " ")
      ++ "ON " ++ s.table.cql ++ " (" ++ Cql.quoteIdentifier column ++ ")"

def DropIndex.cql (s : DropIndex) : Draft String := do
  let (found, _) ← Draft.ofExcept (resolveIndexName s.name)
  let name :=
    if found.keyspace = "" then { found with keyspace := s.table.keyspace } else found
  return "DROP INDEX " ++ optionalText s.ifExists "IF EXISTS " ++ name.cql

end CqlGateway

import CqlGateway.Cql.Query

/-!
# Views in CQL

A view becomes a materialized view, which needs a key. The key is the column of the first
comparison of a column with a constant in the condition of the view, and `id` if there is none; in
the latter case the condition is extended to say that the key is there.
-/

namespace CqlGateway

namespace Term

/-- Whether a term compares a column with a constant for equality. -/
def isKeyComparison (t : Term) : Bool :=
  t.kind = .binary && Cql.Operator.normalize t.operator = "="
    && t.left.kind? = some .column && t.right.isLiteral

def leftColumn (t : Term) : String :=
  match t.left with
  | .of l => l.column
  | .missing => ""

end Term

/-- The column of the first comparison of a column with a constant, if it has a name. -/
def firstEquality? (filter : Expr) : Option String :=
  match filter.terms.find? (·.isKeyComparison) with
  | some t => if t.leftColumn = "" then none else some t.leftColumn
  | none => none

/-- The key of a view whose condition gives none. -/
def fallbackKey : String := "id"

def viewFilterCql (filter : Expr) (keyed : Bool) (key : String) : Draft String := do
  let guard := Cql.quoteIdentifier key ++ " IS NOT NULL"
  if !filter.isPresent then
    return guard
  let text ← filter.cql
  return if keyed then text else text ++ " AND " ++ guard

def CreateView.cql (s : CreateView) : Draft String := do
  Draft.rejectIf (s.name.name = "") (.unnamed "CREATE VIEW")
  match s.definition with
  | none => Draft.reject (.noDefinition s.name.dotted)
  | some query => do
    let base ← baseTable "CREATE VIEW" (query.sources.getD [])
    let columns ← columnsCql query.columns
    let key? := firstEquality? query.filter
    let key := key?.getD fallbackKey
    Draft.warnIf key?.isNone (.assumedViewKey fallbackKey)
    let filter ← viewFilterCql query.filter key?.isSome key
    Draft.warnIf (!query.groupBy.isEmpty || query.having.isPresent) .viewAggregation
    Draft.warnIf (!query.orderBy.isEmpty) .viewOrder
    Draft.warnIf s.orReplace .viewReplacement
    return String.intercalate "\n"
      ["CREATE MATERIALIZED VIEW " ++ optionalText (s.ifNotExists || s.orReplace) "IF NOT EXISTS "
         ++ s.name.cql ++ " AS",
       "  SELECT " ++ columns,
       "  FROM " ++ base.cql,
       "  WHERE " ++ filter,
       "  PRIMARY KEY (" ++ Cql.quoteIdentifier key ++ ")"]

def DropView.cql (s : DropView) : Draft String := do
  Draft.rejectIf (s.name.name = "") (.unnamed "DROP VIEW")
  return "DROP MATERIALIZED VIEW " ++ optionalText s.ifExists "IF EXISTS " ++ s.name.cql

end CqlGateway

import CqlGateway.Cql.Expression
import CqlGateway.Cql.Keyspace
import CqlGateway.Cql.Limit

/-!
# Queries in CQL

A query reads from one table, its first source. Every query gets a limit: its own if it is a
positive integer, the default otherwise.
-/

namespace CqlGateway

/-- The table that a statement reads from: its first source. Further sources are reported. -/
def baseTable (statement : String) (sources : List TableRef) : Draft TableName :=
  match sources with
  | [] => Draft.reject (.noSource statement)
  | first :: rest => do
    Draft.rejectIf (first.table.name = "" && first.subquery.isNone) (.noSource statement)
    Draft.rejectIf first.subquery.isSome .subquerySource
    Draft.warnIf (!rest.isEmpty)
      (if rest.any (·.join ≠ "") then .joinedSource first.table.dotted
       else .furtherSources first.table.dotted)
    return first.table

def SelectColumn.cql (c : SelectColumn) : Draft String := do
  let text ← c.expr.cql
  return if c.label = "" then text else text ++ " AS " ++ Cql.quoteIdentifier c.label

def columnsCql (columns : List SelectColumn) : Draft String := do
  if columns.isEmpty then
    return "*"
  return String.intercalate ", " (← Draft.each SelectColumn.cql columns)

def OrderItem.cql (o : OrderItem) : Draft String := do
  return (← o.expr.cql) ++ if o.desc then " DESC" else " ASC"

def standardLimit : Int := 100

/-- The limit of queries without one, given a setting that may not be positive. -/
def defaultLimit (setting : Int) : Int :=
  if setting ≤ 0 then standardLimit else setting

namespace Select

def filterCql (filter : Expr) : Draft String := do
  if filter.isPresent then return " WHERE " ++ (← filter.cql) else return ""

def orderCql (orderBy : List OrderItem) : Draft String := do
  if orderBy.isEmpty then
    return ""
  let items ← Draft.each OrderItem.cql orderBy
  Draft.warn .unvalidatedOrder
  return " ORDER BY " ++ String.intercalate ", " items

def limitOf (default : Int) (s : Select) : Draft Int := do
  let limit := Limit.ofNode s.limit
  let count ←
    match limit.count? with
    | some count => pure count
    | none => do
      Draft.warnIf (Limit.isGiven s.limit) (.unusableLimit default)
      pure default
  Draft.warnIf (limit.hasOffset || !s.offset.isNull) .offset
  return count

/-- A query in CQL, given the limit of queries without one. -/
def cql (default : Int) (s : Select) : Draft String := do
  let table ← baseTable "SELECT" (s.sources.getD [])
  let columns ← columnsCql s.columns
  Draft.warnIf s.distinct .distinctRows
  let filter ← filterCql s.filter
  Draft.warnIf (!s.groupBy.isEmpty) .groupBy
  Draft.warnIf s.having.isPresent .having
  Draft.warnIf (s.setOperation ≠ "") (.setOperation (Text.upper s.setOperation))
  let order ← orderCql s.orderBy
  let limit ← s.limitOf default
  return "SELECT " ++ optionalText s.distinct "DISTINCT " ++ columns ++ " FROM " ++ table.cql
    ++ filter ++ order ++ " LIMIT " ++ toString limit

end Select

end CqlGateway

import CqlGateway.Cql.Query

/-!
# Changes of rows in CQL

An update or a deletion is on one table and needs a condition. Its order and its limit are
reported and left out.
-/

namespace CqlGateway

/-- Turn down a change that reads from further tables. -/
def requireSingleSource (statement : String) (sources : List TableRef) : Draft Unit := do
  Draft.rejectIf (sources.any (·.join ≠ "")) (.joinedMutation statement)
  Draft.rejectIf (sources.length > 1) (.manySources statement)

def mutationFilterCql (statement : String) (table : TableName) (filter : Expr) : Draft String :=
  match filter with
  | .missing => Draft.reject (.noFilter statement table.dotted)
  | .of t => Expr.cql (.of t)

/-- Report an order and a limit that are left out. -/
def warnOrderAndLimit (statement : String) (orderBy : List OrderItem) (limit : Node) :
    Draft Unit := do
  Draft.warnIf (!orderBy.isEmpty) (.mutationOrder statement)
  Draft.warnIf (Limit.isGiven limit) (.mutationLimit statement)

def Assignment.cql (table : TableName) (a : Assignment) : Draft String := do
  Draft.rejectIf (a.column = "") (.unnamedAssignment table.dotted)
  return Cql.quoteIdentifier a.column ++ " = " ++ (← a.value.valueCql)

def Update.cql (s : Update) : Draft String := do
  Draft.rejectIf (s.table.name = "") (.noTarget "UPDATE")
  requireSingleSource "UPDATE" s.sources
  let assignments := s.assignments.getD []
  Draft.rejectIf assignments.isEmpty (.noAssignments s.table.dotted)
  let filter ← mutationFilterCql "UPDATE" s.table s.filter
  let parts ← Draft.each (Assignment.cql s.table) assignments
  warnOrderAndLimit "UPDATE" s.orderBy s.limit
  return "UPDATE " ++ s.table.cql ++ " SET " ++ String.intercalate ", " parts ++ " WHERE " ++ filter

def Delete.cql (s : Delete) : Draft String := do
  Draft.rejectIf (s.table.name = "") (.noTarget "DELETE")
  requireSingleSource "DELETE" s.sources
  let filter ← mutationFilterCql "DELETE" s.table s.filter
  warnOrderAndLimit "DELETE" s.orderBy s.limit
  return "DELETE " ++ optionalText (!s.columns.isEmpty) (Cql.quoteIdentifiers s.columns ++ " ")
    ++ "FROM " ++ s.table.cql ++ " WHERE " ++ filter

end CqlGateway

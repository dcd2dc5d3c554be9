import CqlGateway.Statement.Rejection

/-!
# Warnings and drafts

What a statement loses on its way to CQL is reported in warnings. A draft is a text, or another
part of a statement, with the warnings raised so far, or the reason why there is none.
-/

namespace CqlGateway

inductive Warning where
  /-- An operator that is only approximated, with the words for it. -/
  | approximated (text : String)
  | orPredicate
  | unmappedAggregate (name : String)
  | unmappedFunction (name : String)
  | distinctArgument (name : String)
  | distinctRows
  | groupBy
  | having
  | setOperation (name : String)
  | unvalidatedOrder
  | unusableLimit (default : Int)
  | offset
  | joinedSource (kept : String)
  | furtherSources (kept : String)
  | ignoredOptions (names : String)
  | uniqueIndex
  | singleColumnIndex (kept : String)
  | partialIndex
  | includedColumns
  | indexOrder
  | functionalIndex (column : String)
  | assumedKey (table column : String)
  | unknownType (column source target : String)
  | defaultValue (column : String)
  | autoIncrement (column : String)
  | keyRename (column : String)
  | expandedRows (count : Nat)
  | mutationOrder (statement : String)
  | mutationLimit (statement : String)
  | assumedViewKey (column : String)
  | viewAggregation
  | viewOrder
  | viewReplacement
  deriving DecidableEq, Repr

def Warning.text : Warning → String
  | .approximated text => text
  | .orPredicate =>
    "CQL does not support OR in WHERE clauses; the store is likely to reject this predicate"
  | .unmappedAggregate name =>
    "aggregate " ++ name ++ " has no CQL equivalent; passed through unchanged"
  | .unmappedFunction name =>
    "function " ++ name ++ " has no CQL equivalent; passed through unchanged"
  | .distinctArgument name => "DISTINCT inside " ++ name ++ " is not supported by CQL; dropped"
  | .distinctRows => "CQL only allows DISTINCT on partition key columns"
  | .groupBy => "GROUP BY is not supported; dropped"
  | .having => "HAVING is not supported; dropped"
  | .setOperation name =>
    name ++ " is not supported by CQL; only the first query was translated"
  | .unvalidatedOrder =>
    "CQL only orders by clustering columns within a partition; ORDER BY was not validated"
  | .unusableLimit default => "LIMIT is not a positive integer; using " ++ toString default
  | .offset => "OFFSET is not supported by CQL; dropped"
  | .joinedSource kept => "JOIN is not supported by CQL; only " ++ kept ++ " is queried"
  | .furtherSources kept =>
    "multiple FROM sources are not supported by CQL; only " ++ kept ++ " is queried"
  | .ignoredOptions names =>
    "schema options " ++ names ++ " have no keyspace equivalent and were ignored"
  | .uniqueIndex =>
    "UNIQUE indexes are not supported by CQL; created as a regular secondary index"
  | .singleColumnIndex kept =>
    "CQL secondary indexes cover a single column; only " ++ kept ++ " is indexed"
  | .partialIndex => "partial indexes are not supported by CQL; WHERE clause dropped"
  | .includedColumns => "INCLUDE columns are not supported by CQL; dropped"
  | .indexOrder => "index sort order is not supported by CQL; ignored"
  | .functionalIndex column =>
    "functional indexes are not supported by CQL; indexing column " ++ column ++ " directly"
  | .assumedKey table column =>
    "table " ++ table ++ " declares no primary key; using column " ++ column
  | .unknownType column source target =>
    "column " ++ column ++ ": type " ++ Text.quote source
      ++ " has no CQL equivalent; mapped to " ++ target
  | .defaultValue column =>
    "column " ++ column ++ ": DEFAULT values are not supported by CQL; dropped"
  | .autoIncrement column =>
    "column " ++ column ++ ": AUTO_INCREMENT is not supported by CQL; consider a uuid key"
  | .keyRename column =>
    "CQL only allows renaming primary key columns; the store rejects renaming " ++ column
      ++ " otherwise"
  | .expandedRows count =>
    toString count
      ++ " rows were expanded into a batch; CQL batches are not atomic across partitions"
  | .mutationOrder statement => "ORDER BY is not supported in " ++ statement ++ "; dropped"
  | .mutationLimit statement => "LIMIT is not supported in " ++ statement ++ "; dropped"
  | .assumedViewKey column =>
    "no equality predicate to infer the view key from; using " ++ column
  | .viewAggregation => "materialized views cannot aggregate; GROUP BY and HAVING dropped"
  | .viewOrder => "ORDER BY in a view definition is not supported; dropped"
  | .viewReplacement =>
    "OR REPLACE is not supported for materialized views; using IF NOT EXISTS"

/-- A statement in CQL with what was lost. The text is a single statement without a terminator, or
several statements with terminators. -/
structure Rendering where
  text : String
  warnings : List String := []
  deriving DecidableEq, Repr

/-- A list without repetitions: of equal texts the first is kept. -/
def distinctTexts : List String → List String
  | [] => []
  | s :: ss => s :: (distinctTexts ss).filter (· ≠ s)

/-- A part of a statement in the making: a value with the warnings raised for it, in order. -/
def Draft (α : Type) : Type :=
  Except Rejection (α × List Warning)

namespace Draft

/-- A part that loses nothing. -/
protected def pure {α : Type} (a : α) : Draft α :=
  .ok (a, [])

/-- Continue with a part; its warnings come first. -/
protected def bind {α β : Type} (d : Draft α) (f : α → Draft β) : Draft β :=
  match d with
  | .error e => .error e
  | .ok (a, ws) =>
    match f a with
    | .error e => .error e
    | .ok (b, vs) => .ok (b, ws ++ vs)

instance : Monad Draft where
  pure := Draft.pure
  bind := Draft.bind

def warn (w : Warning) : Draft Unit :=
  .ok ((), [w])

def warnIf (condition : Bool) (w : Warning) : Draft Unit :=
  if condition then warn w else Draft.pure ()

def reject {α : Type} (r : Rejection) : Draft α :=
  .error r

/-- Turn a statement down if a condition holds. -/
def rejectIf (condition : Bool) (r : Rejection) : Draft Unit :=
  if condition then reject r else Draft.pure ()

/-- A value that may be refused but loses nothing. -/
def ofExcept {α : Type} (r : Except Rejection α) : Draft α :=
  match r with
  | .ok a => .ok (a, [])
  | .error e => .error e

/-- The drafts of the items of a list, in order. -/
def each {α β : Type} (f : α → Draft β) : List α → Draft (List β)
  | [] => Draft.pure []
  | a :: as => do return (← f a) :: (← each f as)

def rendering (d : Draft String) : Except Rejection Rendering :=
  match d with
  | .ok (text, ws) => .ok ⟨text, distinctTexts (ws.map Warning.text)⟩
  | .error e => .error e

end Draft

end CqlGateway

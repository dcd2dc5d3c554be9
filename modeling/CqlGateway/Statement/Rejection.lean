import CqlGateway.Failure

/-!
# Why a statement has no CQL form

Every way in which a statement can be turned down, with the category it is reported under, the
message, and for some of them a hint.
-/

namespace CqlGateway

/-- Why a statement is turned down. -/
inductive Rejection where
  -- malformed parts
  | nodeOfType (typeName : String)
  | unknownNodeType (type : String)
  | missingExpression
  | unknownTermKind (kind : String)
  | unnamedColumnReference
  | missingOperand (operator : String)
  | wrongBounds
  | unknownValueList (typeName : String)
  | noRows (table : String)
  | rowWidth (row : Nat) (table : String) (values columns : Nat)
  | unnamedAssignment (table : String)
  | undeclaredKeyColumn (column table : String)
  | unknownAlteration (action : String)
  -- what the store cannot express
  | unmappedOperator (operator : String)
  | unknownOperator (operator : String)
  | unknownUnaryOperator (operator : String)
  | negatedPredicate
  | existsPredicate (operator : String)
  | subqueryExpression
  | subquerySource
  | insertedQuery
  | joinedMutation (statement : String)
  | manySources (statement : String)
  | retypedColumn (column : String)
  | renamedTable (table : String)
  -- clauses the store requires
  | unnamed (statement : String)
  | noSource (statement : String)
  | noIndexTable
  | noIndexColumn (table : String)
  | emptyIndexElement
  | indexWithoutColumn
  | noColumns (table : String)
  | noPrimaryKey (table : String)
  | noAlterations (table : String)
  | incompleteRename
  | noTarget (statement : String)
  | noColumnList (table : String)
  | noAssignments (table : String)
  | noFilter (statement table : String)
  | noDefinition (view : String)
  -- names
  | unresolvedIndexName
  deriving DecidableEq, Repr

namespace Rejection

def category : Rejection → Category
  | .nodeOfType _ | .unknownNodeType _ | .missingExpression | .unknownTermKind _
  | .unnamedColumnReference | .missingOperand _ | .wrongBounds | .unknownValueList _ | .noRows _
  | .rowWidth _ _ _ _ | .unnamedAssignment _ | .undeclaredKeyColumn _ _
  | .unknownAlteration _ => .invalidStatement
  | .unmappedOperator _ | .unknownOperator _ | .unknownUnaryOperator _ | .negatedPredicate
  | .existsPredicate _ | .subqueryExpression | .subquerySource | .insertedQuery
  | .joinedMutation _ | .manySources _ | .retypedColumn _ | .renamedTable _ =>
    .unsupportedFeature
  | .unnamed _ | .noSource _ | .noIndexTable | .noIndexColumn _ | .emptyIndexElement
  | .indexWithoutColumn | .noColumns _ | .noPrimaryKey _ | .noAlterations _ | .incompleteRename
  | .noTarget _ | .noColumnList _ | .noAssignments _ | .noFilter _ _ | .noDefinition _ =>
    .missingRequiredClause
  | .unresolvedIndexName => .ambiguousName

def message : Rejection → String
  | .nodeOfType typeName => "unrecognised expression node of type " ++ typeName
  | .unknownNodeType type => "unrecognised expression node type " ++ Text.quote type
  | .missingExpression => "missing expression"
  | .unknownTermKind kind => "unrecognised expression type " ++ Text.quote kind
  | .unnamedColumnReference => "column reference without a column name"
  | .missingOperand operator => "operator " ++ operator ++ " is missing an operand"
  | .wrongBounds => "BETWEEN requires exactly two bounds"
  | .unknownValueList typeName => "unrecognised INSERT value list of type " ++ typeName
  | .noRows table => "INSERT INTO " ++ table ++ " has no rows"
  | .rowWidth row table values columns =>
    "row " ++ toString row ++ " of INSERT INTO " ++ table ++ " has " ++ toString values
      ++ " values for " ++ toString columns ++ " columns"
  | .unnamedAssignment table => "UPDATE " ++ table ++ " assigns to an unnamed column"
  | .undeclaredKeyColumn column table =>
    "primary key column " ++ Text.quote column ++ " is not declared in table " ++ table
  | .unknownAlteration action => "unknown ALTER TABLE action " ++ Text.quote action
  | .unmappedOperator operator => "operator " ++ operator ++ " has no CQL equivalent"
  | .unknownOperator operator => "unknown operator " ++ Text.quote operator
  | .unknownUnaryOperator operator =>
    "unary operator " ++ Text.quote operator ++ " is not supported"
  | .negatedPredicate => "NOT predicates are not supported by CQL"
  | .existsPredicate operator => operator ++ " subqueries are not supported by CQL"
  | .subqueryExpression => "subqueries are not supported by CQL"
  | .subquerySource => "subqueries in FROM are not supported by CQL"
  | .insertedQuery => "INSERT ... SELECT is not supported by CQL"
  | .joinedMutation statement => statement ++ " with JOIN is not supported by CQL"
  | .manySources statement => statement ++ " over multiple tables is not supported by CQL"
  | .retypedColumn column =>
    "changing the type of column " ++ column
      ++ " is not supported: CQL cannot alter a column's type in place"
  | .renamedTable table => "renaming table " ++ table ++ " is not supported by CQL"
  | .unnamed statement => statement ++ " requires a name"
  | .noSource statement => statement ++ " requires a FROM table"
  | .noIndexTable => "CREATE INDEX requires a table"
  | .noIndexColumn table => "CREATE INDEX on " ++ table ++ " names no column"
  | .emptyIndexElement => "CREATE INDEX element names no column"
  | .indexWithoutColumn => "CREATE INDEX expression references no column"
  | .noColumns table => "CREATE TABLE " ++ table ++ " declares no columns"
  | .noPrimaryKey table =>
    "table " ++ table ++ " has no primary key and no id column to fall back on"
  | .noAlterations table => "ALTER TABLE " ++ table ++ " has no alterations"
  | .incompleteRename => "RENAME COLUMN requires the old and the new name"
  | .noTarget statement => statement ++ " requires a target table"
  | .noColumnList table => "INSERT INTO " ++ table ++ " has no column list"
  | .noAssignments table => "UPDATE " ++ table ++ " has no SET clause"
  | .noFilter statement table =>
    statement ++ " " ++ table
      ++ " has no WHERE clause; CQL does not allow unconditional mutations"
  | .noDefinition view => "CREATE VIEW " ++ view ++ " has no SELECT definition"
  | .unresolvedIndexName => "could not determine the index name to drop"

def hint? : Rejection → Option String
  | .insertedQuery => some "query the source rows first and insert them as literal values"
  | .retypedColumn _ => some "add a new column with the desired type and migrate the data"
  | .noPrimaryKey _ => some "mark a column PRIMARY KEY or add an id column"
  | .noColumnList _ =>
    some "CQL requires the columns to be named: INSERT INTO t (a, b) VALUES (...)"
  | .noFilter _ _ =>
    some "restrict the statement by primary key, or use TRUNCATE to empty the table"
  | .noDefinition _ => some "materialized views need an explicit AS SELECT ... FROM ..."
  | .unresolvedIndexName =>
    some "write the index name without qualifiers, e.g. DROP INDEX idx_name"
  | _ => none

def failure (r : Rejection) : Failure :=
  let f := Failure.marked r.category (.plain r.message)
  match r.hint? with
  | some h => .hinted h f
  | none => f

end Rejection

end CqlGateway

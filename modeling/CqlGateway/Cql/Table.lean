import CqlGateway.Cql.ColumnType
import CqlGateway.Cql.Keyspace

/-!
# Tables in CQL

Every table has a primary key: the one that is declared for the table, else the columns that are
marked, else a column called `id`. Alterations are grouped into one statement for each action:
first what is added, then what is dropped, then what is renamed.
-/

namespace CqlGateway

/-- Statements that run one after the other; a single one stands bare. -/
def sequenceCql : List String → String
  | [s] => s
  | statements => String.intercalate ";\n" statements ++ ";"

def Column.cql (c : Column) : Draft String := do
  let (type, known) := Cql.ColumnType.ofSource c.sourceType
  Draft.warnIf (!known) (.unknownType c.name c.sourceType type.cql)
  Draft.warnIf c.defaultValue.isSome (.defaultValue c.name)
  Draft.warnIf c.autoIncrement (.autoIncrement c.name)
  return Cql.quoteIdentifier c.name ++ " " ++ type.cql

def keyColumn (table : TableName) (columns : List Column) (name : String) : Draft String :=
  match Column.find? columns (Cql.unquote name) with
  | some c => pure c.name
  | none => Draft.reject (.undeclaredKeyColumn name table.dotted)

def CreateTable.key (s : CreateTable) (columns : List Column) : Draft (List String) :=
  if !s.primaryKey.isEmpty then
    Draft.each (keyColumn s.table columns) s.primaryKey
  else
    match (columns.filter (·.primaryKey)).map (·.name) with
    | [] =>
      match Column.find? columns "id" with
      | some c => do
        Draft.warn (.assumedKey s.table.dotted c.name)
        return [c.name]
      | none => Draft.reject (.noPrimaryKey s.table.dotted)
    | marked => pure marked

def CreateTable.cql (s : CreateTable) : Draft String := do
  Draft.rejectIf (s.table.name = "") (.unnamed "CREATE TABLE")
  let columns := s.columns.getD []
  Draft.rejectIf columns.isEmpty (.noColumns s.table.dotted)
  let key ← s.key columns
  let parts ← Draft.each Column.cql columns
  let keyPart := "PRIMARY KEY (" ++ Cql.quoteIdentifiers key ++ ")"
  return "CREATE TABLE " ++ optionalText s.ifNotExists "IF NOT EXISTS " ++ s.table.cql ++ " (\n  "
    ++ String.intercalate ",\n  " (parts ++ [keyPart]) ++ "\n)"

structure Alterations where
  adds : List String := []
  drops : List String := []
  renames : List String := []
  deriving DecidableEq, Repr

def AlterSpec.columnName (spec : AlterSpec) : String :=
  if spec.column.name = "" then spec.oldName else spec.column.name

def Alterations.add (table : TableName) (a : Alterations) (spec : AlterSpec) :
    Draft Alterations :=
  match spec.action with
  | "add" => do
    Draft.rejectIf (spec.column.name = "") (.unnamed "ADD COLUMN")
    return { a with adds := a.adds ++ [← spec.column.cql] }
  | "drop" => do
    Draft.rejectIf (spec.columnName = "") (.unnamed "DROP COLUMN")
    return { a with drops := a.drops ++ [Cql.quoteIdentifier spec.columnName] }
  | "rename" => do
    Draft.rejectIf (spec.oldName = "" || spec.newName = "") .incompleteRename
    Draft.warn (.keyRename spec.oldName)
    let part := Cql.quoteIdentifier spec.oldName ++ " TO " ++ Cql.quoteIdentifier spec.newName
    return { a with renames := a.renames ++ [part] }
  | "modify" | "change" => Draft.reject (.retypedColumn spec.columnName)
  | "rename_table" => Draft.reject (.renamedTable table.dotted)
  | action => Draft.reject (.unknownAlteration action)

def Alterations.addAll (table : TableName) (a : Alterations) : List AlterSpec → Draft Alterations
  | [] => pure a
  | spec :: specs => do addAll table (← a.add table spec) specs

/-- One part bare, several parts in parentheses. -/
def groupCql : List String → String
  | [part] => part
  | parts => "(" ++ String.intercalate ", " parts ++ ")"

def Alterations.statements (table : TableName) (a : Alterations) : List String :=
  let start := "ALTER TABLE " ++ table.cql
  (if a.adds.isEmpty then [] else [start ++ " ADD " ++ groupCql a.adds])
  ++ (if a.drops.isEmpty then [] else [start ++ " DROP " ++ groupCql a.drops])
  ++ (if a.renames.isEmpty then []
      else [start ++ " RENAME " ++ String.intercalate " AND " a.renames])

def AlterTable.cql (s : AlterTable) : Draft String := do
  Draft.rejectIf (s.table.name = "") (.unnamed "ALTER TABLE")
  let specs := s.specs.getD []
  Draft.rejectIf specs.isEmpty (.noAlterations s.table.dotted)
  let alterations ← Alterations.addAll s.table {} specs
  return sequenceCql (alterations.statements s.table)

def dropTableCql (ifExists : Bool) (table : TableName) : Draft String := do
  Draft.rejectIf (table.name = "") (.unnamed "DROP TABLE")
  return "DROP TABLE " ++ optionalText ifExists "IF EXISTS " ++ table.cql

def DropTable.cql (s : DropTable) : Draft String := do
  let tables := s.tables.getD []
  Draft.rejectIf tables.isEmpty (.unnamed "DROP TABLE")
  return sequenceCql (← Draft.each (dropTableCql s.ifExists) tables)

def TruncateTable.cql (s : TruncateTable) : Draft String := do
  Draft.rejectIf (s.table.name = "") (.unnamed "TRUNCATE")
  return "TRUNCATE " ++ s.table.cql

end CqlGateway

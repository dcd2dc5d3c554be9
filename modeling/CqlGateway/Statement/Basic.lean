import CqlGateway.Catalog.Table
import CqlGateway.Statement.Tree
import CqlGateway.Text.Blank

/-!
# Statements

A statement is one of seventeen kinds. Its kind fixes the operation that a caller must be allowed
to run. A list that a statement need not give is an option, so that a list that was not given is
told apart from an empty one.
-/

namespace CqlGateway

structure CreateKeyspace where
  name : String := ""
  ifNotExists : Bool := false
  /-- Further options, sorted by name. -/
  options : List (String × String) := []

structure AlterKeyspace where
  name : String := ""
  /-- Further options, sorted by name. -/
  options : List (String × String) := []

structure DropKeyspace where
  name : String := ""
  ifExists : Bool := false

/-- Choose the keyspace for what follows. -/
structure Use where
  keyspace : String := ""

structure Describe where
  /-- What is listed: `keyspaces`, `databases`, `schemas`, `tables`, `table` or `columns`. -/
  object : String := ""
  table : TableName := {}

/-- Whether a word for what is described means the list of keyspaces. -/
def Describe.listsKeyspaces (d : Describe) : Bool :=
  d.object = "keyspaces" || d.object = "databases" || d.object = "schemas"

structure CreateTable where
  table : TableName := {}
  ifNotExists : Bool := false
  columns : Option (List Column) := none
  /-- The columns of a key constraint of the table. -/
  primaryKey : List String := []

structure AlterSpec where
  /-- `add`, `drop`, `rename`, `modify`, `change` or `rename_table`. -/
  action : String := ""
  column : Column := {}
  oldName : String := ""
  newName : String := ""

structure AlterTable where
  table : TableName := {}
  specs : Option (List AlterSpec) := none

structure DropTable where
  tables : Option (List TableName) := none
  ifExists : Bool := false

structure TruncateTable where
  table : TableName := {}

structure IndexColumn where
  name : String := ""
  expr : Expr := .missing
  desc : Bool := false

structure CreateIndex where
  name : String := ""
  table : TableName := {}
  columns : Option (List IndexColumn) := none
  unique : Bool := false
  ifNotExists : Bool := false
  filter : Expr := .missing
  included : List String := []

structure DropIndex where
  /-- The name, in one of the shapes that parsers give it. -/
  name : Node := .null
  table : TableName := {}
  ifExists : Bool := false

structure CreateView where
  name : TableName := {}
  orReplace : Bool := false
  ifNotExists : Bool := false
  definition : Option Select := none

structure DropView where
  name : TableName := {}
  ifExists : Bool := false

structure Insert where
  table : TableName := {}
  columns : List String := []
  /-- The rows, in one of the shapes that parsers give them. -/
  values : Node := .null
  query : Option Select := none

structure Assignment where
  column : String := ""
  value : Expr := .missing

structure Update where
  table : TableName := {}
  sources : List TableRef := []
  assignments : Option (List Assignment) := none
  filter : Expr := .missing
  orderBy : List OrderItem := []
  limit : Node := .null

structure Delete where
  table : TableName := {}
  columns : List String := []
  sources : List TableRef := []
  filter : Expr := .missing
  orderBy : List OrderItem := []
  limit : Node := .null

inductive Statement where
  | createKeyspace (s : CreateKeyspace)
  | alterKeyspace (s : AlterKeyspace)
  | dropKeyspace (s : DropKeyspace)
  | use (s : Use)
  | describe (s : Describe)
  | createTable (s : CreateTable)
  | alterTable (s : AlterTable)
  | dropTable (s : DropTable)
  | truncateTable (s : TruncateTable)
  | createIndex (s : CreateIndex)
  | dropIndex (s : DropIndex)
  | createView (s : CreateView)
  | dropView (s : DropView)
  | select (s : Select)
  | insert (s : Insert)
  | update (s : Update)
  | delete (s : Delete)

inductive StatementKind where
  | createKeyspace
  | alterKeyspace
  | dropKeyspace
  | use
  | describe
  | createTable
  | alterTable
  | dropTable
  | truncateTable
  | createIndex
  | dropIndex
  | createView
  | dropView
  | select
  | insert
  | update
  | delete
  deriving DecidableEq, Repr

inductive Operation where
  | select
  | insert
  | update
  | delete
  | create
  | alter
  | drop
  | truncate
  | use
  | describe
  deriving DecidableEq, Repr

namespace StatementKind

/-- The kinds in the order of their numbers. -/
def all : List StatementKind :=
  [.createKeyspace, .alterKeyspace, .dropKeyspace, .use, .describe, .createTable, .alterTable,
   .dropTable, .truncateTable, .createIndex, .dropIndex, .createView, .dropView, .select, .insert,
   .update, .delete]

def name : StatementKind → String
  | .createKeyspace => "create_keyspace"
  | .alterKeyspace => "alter_keyspace"
  | .dropKeyspace => "drop_keyspace"
  | .use => "use"
  | .describe => "describe"
  | .createTable => "create_table"
  | .alterTable => "alter_table"
  | .dropTable => "drop_table"
  | .truncateTable => "truncate_table"
  | .createIndex => "create_index"
  | .dropIndex => "drop_index"
  | .createView => "create_view"
  | .dropView => "drop_view"
  | .select => "select"
  | .insert => "insert"
  | .update => "update"
  | .delete => "delete"

def ofName? (name : String) : Option StatementKind :=
  all.find? fun k => k.name = name

def ofNumber? (n : Int) : Option StatementKind :=
  if 0 ≤ n then all[n.toNat]? else none

def number (k : StatementKind) : Nat :=
  all.idxOf k

def operation : StatementKind → Operation
  | .createKeyspace | .createTable | .createIndex | .createView => .create
  | .alterKeyspace | .alterTable => .alter
  | .dropKeyspace | .dropTable | .dropIndex | .dropView => .drop
  | .truncateTable => .truncate
  | .use => .use
  | .describe => .describe
  | .select => .select
  | .insert => .insert
  | .update => .update
  | .delete => .delete

end StatementKind

namespace Operation

/-- The name of an operation, as permissions are granted under it. -/
def name : Operation → String
  | .select => "select"
  | .insert => "insert"
  | .update => "update"
  | .delete => "delete"
  | .create => "create"
  | .alter => "alter"
  | .drop => "drop"
  | .truncate => "truncate"
  | .use => "use"
  | .describe => "describe"

def all : List Operation :=
  [.select, .insert, .update, .delete, .create, .alter, .drop, .truncate, .use, .describe]

/-- What is said once an operation is complete. -/
def summary : Operation → String
  | .select => "Rows retrieved."
  | .insert => "Rows written."
  | .update => "Rows updated."
  | .delete => "Rows deleted."
  | .create => "Schema object created."
  | .alter => "Schema object altered."
  | .drop => "Schema object dropped."
  | .truncate => "Table truncated."
  | .use => "Keyspace selected."
  | .describe => "Schema described."

/-- What is said once the operation of the given name is complete; nothing for other names. -/
def summaryOf (name : String) : String :=
  match all.find? fun op => op.name = Text.lower (Text.trim name) with
  | some op => op.summary
  | none => ""

end Operation

namespace Statement

def kind : Statement → StatementKind
  | .createKeyspace _ => .createKeyspace
  | .alterKeyspace _ => .alterKeyspace
  | .dropKeyspace _ => .dropKeyspace
  | .use _ => .use
  | .describe _ => .describe
  | .createTable _ => .createTable
  | .alterTable _ => .alterTable
  | .dropTable _ => .dropTable
  | .truncateTable _ => .truncateTable
  | .createIndex _ => .createIndex
  | .dropIndex _ => .dropIndex
  | .createView _ => .createView
  | .dropView _ => .dropView
  | .select _ => .select
  | .insert _ => .insert
  | .update _ => .update
  | .delete _ => .delete

def operation (s : Statement) : Operation :=
  s.kind.operation

end Statement

end CqlGateway

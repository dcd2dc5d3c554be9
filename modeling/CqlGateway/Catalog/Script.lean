import CqlGateway.Cql.Engine

/-!
# Scripts

A script is a list of CQL statements with the warnings that arose when they were made. It is
written with the warnings as comments in front.

The script of a catalog creates its tables and their indexes, in a keyspace of their own if one is
given. A table that has no form in CQL is skipped; the script says so and goes on.
-/

namespace CqlGateway

structure Script where
  statements : List String := []
  warnings : List String := []
  /-- The tables that have no form in CQL. -/
  skipped : List String := []
  /-- The statements that were tried, by kind, and whether they have a form in CQL. -/
  tried : List (String × Bool) := []
  deriving DecidableEq, Repr

/-- A catalog as it is read: the names of its tables, and the definition of each. -/
structure TableSource where
  names : Except Failure (List String)
  table : String → Except Failure TableSchema

/-- The tables to read: those that are named, or all. -/
def TableSource.chosen (source : TableSource) (only : List String) :
    Except Failure (List String) :=
  if only.isEmpty then
    match source.names with
    | .ok names => .ok names
    | .error f => .error (.wrapped "failed to list tables" f)
  else
    .ok only

def TableSource.read (source : TableSource) (name : String) : Except Failure TableSchema :=
  match source.table name with
  | .ok t => .ok t
  | .error f => .error (.wrapped ("failed to read table " ++ name) f)

/-! ### Statements for a table -/

def TableSchema.createTable (t : TableSchema) (keyspace : String) : CreateTable where
  table := ⟨keyspace, t.name⟩
  ifNotExists := true
  columns := some t.columns
  primaryKey := t.primaryKey

def Index.create (i : Index) (keyspace table : String) : CreateIndex where
  name := i.name
  table := ⟨keyspace, table⟩
  columns := some (i.columns.map fun name => { name := name })
  unique := i.unique
  ifNotExists := true

/-- The statements that create the secondary indexes of a table. -/
def TableSchema.createIndexes (t : TableSchema) (keyspace : String) : List CreateIndex :=
  (t.indexes.filter fun i => !i.primary && !i.columns.isEmpty).map (·.create keyspace t.name)

namespace Script

def terminated (statement : String) : String :=
  if statement.toList.getLast? = some ';' then statement else statement ++ ";"

def text (s : Script) : String :=
  String.join (s.warnings.map fun w => "-- " ++ w ++ "\n")
    ++ (if !s.warnings.isEmpty && !s.statements.isEmpty then "\n" else "")
    ++ String.intercalate "\n\n" (s.statements.map terminated)
    ++ (if s.statements.isEmpty then "" else "\n")

def warn (s : Script) (warning : String) : Script :=
  { s with warnings := s.warnings ++ [warning] }

def skip (s : Script) (table : String) : Script :=
  { s with skipped := s.skipped ++ [table] }

/-- The script after a statement was tried. -/
def record (s : Script) (a : Attempt) : Script :=
  { s with tried := s.tried ++ (a.counted?.map fun kind => (kind, a.outcome.isOk)).toList }

/-- The script with a further statement, or the failure of a statement that has no form in CQL. The
warnings of the statement are told to be about a table, if there is one. -/
def add (s : Script) (options : RenderingOptions) (table : String) (statement : Statement) :
    Script × Option Failure :=
  let attempt := Attempt.ofStatement options statement
  let s := s.record attempt
  match attempt.outcome with
  | .error f => (s, some f)
  | .ok r =>
    let about (w : String) : String := if table = "" then w else table ++ ": " ++ w
    ({ s with
      statements := s.statements ++ [r.text], warnings := s.warnings ++ r.warnings.map about }, none)

/-- The script with a further index, or with a warning if the index has no form in CQL. -/
def addIndex (options : RenderingOptions) (table : String) (s : Script) (i : CreateIndex) :
    Script :=
  match s.add options table (.createIndex i) with
  | (next, none) => next
  | (next, some f) => next.warn (table ++ ": index " ++ i.name ++ " skipped: " ++ f.diagnostic)

def foreignKeyWarning (table : String) (k : ForeignKey) : String :=
  table ++ ": foreign key " ++ k.name ++ " on " ++ k.column
    ++ " dropped; CQL has no referential constraints"

def addTable (options : RenderingOptions) (keyspace : String) (s : Script) (name : String)
    (t : TableSchema) : Script :=
  match s.add options name (.createTable (t.createTable keyspace)) with
  | (next, some f) => (next.skip name).warn (name ++ ": skipped: " ++ f.diagnostic)
  | (next, none) =>
    (t.foreignKeys.map (foreignKeyWarning name)).foldl warn
      ((t.createIndexes keyspace).foldl (addIndex options name) next)

/-- The script with further tables, up to the first one that cannot be read. -/
def addTables (options : RenderingOptions) (keyspace : String) (source : TableSource) :
    Script → List String → Script × Option Failure
  | s, [] => (s, none)
  | s, name :: names =>
    match source.read name with
    | .error f => (s, some f)
    | .ok t => addTables options keyspace source (s.addTable options keyspace name t) names

def addKeyspace (s : Script) (options : RenderingOptions) (keyspace : String) :
    Script × Option Failure :=
  if keyspace = "" then (s, none)
  else s.add options "" (.createKeyspace { name := keyspace, ifNotExists := true })

/-- The script of a catalog, as far as it can be made, and the failure that ended it. -/
def build (options : RenderingOptions) (keyspace : String) (source : TableSource)
    (only : List String) : Script × Option Failure :=
  match source.chosen only with
  | .error f => ({}, some f)
  | .ok names =>
    match addKeyspace {} options keyspace with
    | (s, some f) => (s, some f)
    | (s, none) => addTables options keyspace source s names

def ofCatalog (options : RenderingOptions) (keyspace : String) (source : TableSource)
    (only : List String) : Except Failure Script :=
  match build options keyspace source only with
  | (s, none) => .ok s
  | (_, some f) => .error f

end Script

end CqlGateway

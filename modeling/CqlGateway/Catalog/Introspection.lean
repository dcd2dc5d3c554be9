import CqlGateway.Catalog.Query
import CqlGateway.Catalog.Table
import CqlGateway.Text.Sorted

/-!
# Reading table definitions

Each dialect has queries of its own for the columns, the indexes and the foreign keys of a table.
The index rows of two dialects come with one row for a column of an index and are gathered by the
name of the index; the third dialect lists the indexes first and the columns of each index on
request.

A reader asks its queries one after the other and stops at the first that fails. The queries that
were asked are kept.
-/

namespace CqlGateway.Catalog

inductive Dialect where
  | mysql
  | postgres
  | sqlite
  deriving DecidableEq, Repr

structure Source where
  dialect : Dialect
  database : String
  answer : Query → Except Failure QueryRows

def Query.set : Query → String
  | .tables => "tables"
  | .columns _ => "columns"
  | .indexes _ => "indexes"
  | .indexColumns _ => "index_columns"
  | .foreignKeys _ => "foreign_keys"
  | .definition _ => "sql"

/-- What a query is about, if it is not about the whole catalog. -/
def Query.object? : Query → Option String
  | .tables => none
  | .columns t | .indexes t | .foreignKeys t | .definition t => some t
  | .indexColumns i => some i

def Source.arguments (s : Source) (q : Query) : List String :=
  (if s.dialect = .mysql then [s.database] else []) ++ q.object?.toList

/-- Reading with the queries that were asked. -/
abbrev Inspection (α : Type) := ExceptT Failure (StateM (List Query)) α

namespace Source

/-- Ask a query and read its rows. The contexts are those of a query that fails and of a row that
cannot be read. -/
def read {α : Type} (s : Source) (q : Query) (context rowContext : String)
    (scan : List Cell → Option α) : Inspection (List α) := do
  modify fun asked => asked ++ [q]
  match s.answer q with
  | .error f => throw (inContext context f)
  | .ok rows =>
    match rows.scan rowContext scan with
    | .ok as => return as
    | .error f => throw f

end Source

/-! ### Rows -/

/-- Whether a text occurs in another one. -/
def occursIn (part : List Char) : List Char → Bool
  | [] => part.isEmpty
  | c :: cs => part.isPrefixOf (c :: cs) || occursIn part cs

def mentions (text part : String) : Bool :=
  occursIn part.toList text.toList

/-- Name, type, nullability, default, remarks, position. -/
def scanMysqlColumn : List Cell → Option Column
  | [name, type, nullable, default, extra, position] => do
    return {
      name := ← name.text?
      sourceType := ← type.text?
      nullable := (← nullable.text?) = "YES"
      defaultValue := default.text?
      autoIncrement := mentions (Text.lower (← extra.text?)) "auto_increment"
      position := ← position.integer? }
  | _ => none

/-- Name, type, nullability, default, position. A default that draws from a sequence is no default
but says that the column counts up. -/
def scanPostgresColumn : List Cell → Option Column
  | [name, type, nullable, default, position] => do
    let counts := mentions (Text.lower (default.text?.getD "")) "nextval"
    return {
      name := ← name.text?
      sourceType := ← type.text?
      nullable := (← nullable.text?) = "YES"
      defaultValue := if counts then none else default.text?
      autoIncrement := counts
      position := ← position.integer? }
  | _ => none

/-- Position from zero, name, type, whether nulls are refused, default, place in the key. The
result has the place in the key beside the column. -/
def scanSqliteColumn : List Cell → Option (Column × Int)
  | [position, name, type, notNull, default, key] => do
    let column : Column := {
      position := (← position.integer?) + 1
      name := ← name.text?
      sourceType := ← type.text?
      nullable := (← notNull.integer?) = 0
      defaultValue := default.text? }
    return (column, ← key.integer?)
  | _ => none

/-- A column of an index, with what is known of the index. -/
structure IndexRow where
  index : String
  column : String
  unique : Bool
  primary : Bool
  deriving DecidableEq, Repr

/-- Index, column, whether duplicates are allowed. -/
def scanMysqlIndex : List Cell → Option IndexRow
  | [index, column, nonUnique] => do
    let name ← index.text?
    return ⟨name, ← column.text?, (← nonUnique.integer?) = 0, name = "PRIMARY"⟩
  | _ => none

/-- Index, column, whether it is unique, whether it is primary. -/
def scanPostgresIndex : List Cell → Option IndexRow
  | [index, column, unique, primary] => do
    return ⟨← index.text?, ← column.text?, ← unique.flag?, ← primary.flag?⟩
  | _ => none

/-- Index, whether it is unique, origin. -/
def scanSqliteIndex : List Cell → Option Index
  | [index, unique, origin] => do
    return { name := ← index.text?, unique := (← unique.integer?) = 1
             primary := (← origin.text?) = "pk" }
  | _ => none

/-- Constraint, column, referenced table, referenced column. -/
def scanForeignKey : List Cell → Option ForeignKey
  | [name, column, table, target] => do
    return ⟨← name.text?, ← column.text?, ← table.text?, ← target.text?⟩
  | _ => none

/-- Number, column, referenced table, referenced column, which may be absent. -/
def scanSqliteForeignKey (table : String) : List Cell → Option ForeignKey
  | [id, column, referenced, target] => do
    let number ← id.integer?
    return ⟨"fk_" ++ table ++ "_" ++ toString number, ← column.text?, ← referenced.text?,
      target.text?.getD ""⟩
  | _ => none

/-! ### Indexes -/

/-- Put an index into a list in the order of names, behind those of the same name. -/
def insertIndex (i : Index) : List Index → List Index
  | [] => [i]
  | j :: js => if i.name < j.name then i :: j :: js else j :: insertIndex i js

/-- Indexes in the order of their names. -/
def sortIndexes (indexes : List Index) : List Index :=
  indexes.foldl (fun sorted i => insertIndex i sorted) []

/-- Add a row to the indexes gathered so far: a further column of an index, or a new index with
what the row says of it. -/
def addIndexRow (indexes : List Index) (r : IndexRow) : List Index :=
  if indexes.any (·.name = r.index) then
    indexes.map fun i => if i.name = r.index then { i with columns := i.columns ++ [r.column] } else i
  else
    indexes ++ [⟨r.index, [r.column], r.unique, r.primary⟩]

/-- The indexes that rows describe, in the order of their names. -/
def gatherIndexes (rows : List IndexRow) : List Index :=
  sortIndexes (rows.foldl addIndexRow [])

/-! ### Tables -/

/-- Flag the first column of the given name. -/
def flagColumn (flag : Column → Column) (name : String) : List Column → List Column
  | [] => []
  | c :: cs => if Text.equalFold c.name name then flag c :: cs else c :: flagColumn flag name cs

def markPrimaryKey (t : TableSchema) : TableSchema :=
  let names := (t.indexes.filter (·.primary)).flatMap (·.columns)
  { t with
    columns :=
      names.foldl (fun cs name => flagColumn (fun c => { c with primaryKey := true }) name cs)
        t.columns }

def absentFailure (table : String) : Failure :=
  .plain ("table " ++ table ++ " does not exist")

/-- Put a part of a key into a list in the order of places, behind those of the same place. -/
def insertKeyPart (part : String × Int) : List (String × Int) → List (String × Int)
  | [] => [part]
  | other :: rest =>
    if part.2 < other.2 then part :: other :: rest else other :: insertKeyPart part rest

/-- The columns of the key, in the order of their places. -/
def keyOrder (columns : List (Column × Int)) : List String :=
  let parts := (columns.filter (0 < ·.2)).map fun (c, place) => (c.name, place)
  (parts.foldl (fun sorted p => insertKeyPart p sorted) []).map (·.1)

namespace Source

def tables (s : Source) : Inspection (List String) :=
  match s.dialect with
  | .sqlite => s.read .tables "" "" scanText
  | _ => s.read .tables "failed to get tables" "failed to scan table name" scanText

/-- The indexes of a table where index rows have a column each. -/
def gatheredIndexes (s : Source) (table : String) (index : List Cell → Option IndexRow) :
    Inspection (List Index) := do
  let rows ← s.read (.indexes table) "failed to get indexes" "failed to scan index" index
  return gatherIndexes rows

/-- An index that was listed, with its columns. -/
def withColumns (s : Source) (i : Index) : Inspection Index := do
  let columns ←
    tryCatch (s.read (.indexColumns i.name) "" "" scanText) fun f =>
      throw (.wrapped ("failed to get columns of index " ++ i.name) f)
  return { i with columns := columns }

/-- The indexes of a table, listed first and then looked at one by one. -/
def listedIndexes (s : Source) (table : String) : Inspection (List Index) := do
  let indexes ← s.read (.indexes table) "failed to get indexes" "failed to scan index"
    scanSqliteIndex
  return sortIndexes (← indexes.mapM s.withColumns)

def indexes (s : Source) (table : String) : Inspection (List Index) :=
  match s.dialect with
  | .mysql => s.gatheredIndexes table scanMysqlIndex
  | .postgres => s.gatheredIndexes table scanPostgresIndex
  | .sqlite => s.listedIndexes table

/-- The definition of a table where index rows have a column each. -/
def tableByRows (s : Source) (table : String) (column : List Cell → Option Column) :
    Inspection TableSchema := do
  let columns ← s.read (.columns table) "failed to get columns" "failed to scan column" column
  if columns.isEmpty then throw (absentFailure table)
  let indexes ← s.indexes table
  let foreignKeys ←
    s.read (.foreignKeys table) "failed to get foreign keys" "failed to scan foreign key"
      scanForeignKey
  return markPrimaryKey ⟨table, columns, indexes, foreignKeys⟩

/-- The statement that created a table, empty if there is none. -/
def definition (s : Source) (table : String) : Inspection String := do
  let context := "failed to read table definition"
  modify fun asked => asked ++ [.definition table]
  match s.answer (.definition table) with
  | .error f => throw (.wrapped context f)
  | .ok ⟨[], some f⟩ => throw (.wrapped context f)
  | .ok ⟨[], none⟩ => throw (.wrapped context (.foreign "sql: no rows in result set"))
  | .ok ⟨[c] :: _, _⟩ => return c.text?.getD ""
  | .ok _ => throw (.wrapped context scanFailure)

/-- The definition of a table where a key of one number column has no index. -/
def tableByLists (s : Source) (table : String) : Inspection TableSchema := do
  let columns ← s.read (.columns table) "failed to get columns" "failed to scan column"
    scanSqliteColumn
  if columns.isEmpty then throw (absentFailure table)
  let indexes ← s.indexes table
  let foreignKeys ←
    s.read (.foreignKeys table) "failed to get foreign keys" "failed to scan foreign key"
      (scanSqliteForeignKey table)
  let key := keyOrder columns
  let indexes :=
    if indexes.any (·.primary) || key.isEmpty then indexes
    else indexes ++ [⟨"PRIMARY", key, true, true⟩]
  let t := markPrimaryKey ⟨table, columns.map (·.1), indexes, foreignKeys⟩
  match key with
  | [name] =>
    let ddl ← s.definition table
    if mentions (Text.upper ddl) "AUTOINCREMENT" then
      return { t with
        columns := flagColumn (fun c => { c with autoIncrement := true }) name t.columns }
    else
      return t
  | _ => return t

def table (s : Source) (name : String) : Inspection TableSchema :=
  match s.dialect with
  | .mysql => s.tableByRows name scanMysqlColumn
  | .postgres => s.tableByRows name scanPostgresColumn
  | .sqlite => s.tableByLists name

end Source

/-- What reading comes to, without the queries. -/
def Inspection.result {α : Type} (i : Inspection α) : Except Failure α :=
  (i.run []).1

def Inspection.queries {α : Type} (i : Inspection α) : List Query :=
  (i.run []).2

end CqlGateway.Catalog

import CqlGateway.Catalog.Introspection

/-!
# The embedded database

An embedded database is a file with tables, their declarations and their rows. The cells of the
tables that the gateway keeps for itself are texts.

Names are found ignoring the case of plain letters. A key that is a single column of the integer
type has no index of its own; any other key has one, named after the table. Foreign keys are
numbered from the one declared last.
-/

namespace CqlGateway.Catalog

/-- A column as it is declared. -/
structure EmbeddedColumn where
  name : String
  type : String := ""
  notNull : Bool := false
  /-- The text of the default, empty without one. -/
  initial : String := ""
  deriving DecidableEq, Repr

/-- A foreign key as it is declared; the target is empty if it is not given. -/
structure EmbeddedForeignKey where
  column : String
  table : String
  target : String := ""
  deriving DecidableEq, Repr

/-- A table as it is declared, with its rows. -/
structure EmbeddedTable where
  name : String
  columns : List EmbeddedColumn := []
  primaryKey : List String := []
  autoIncrement : Bool := false
  foreignKeys : List EmbeddedForeignKey := []
  indexes : List Index := []
  rows : List (List String) := []
  deriving DecidableEq, Repr

structure EmbeddedDatabase where
  tables : List EmbeddedTable := []
  deriving DecidableEq, Repr

/-- A name with plain letters in lower case. -/
def plainLower (name : String) : String :=
  String.ofList (name.toList.map Char.toLower)

def sameName (a b : String) : Bool :=
  plainLower a = plainLower b

namespace EmbeddedTable

/-- A column under the name it was declared with. -/
def columnName (t : EmbeddedTable) (name : String) : String :=
  ((t.columns.find? (sameName ·.name name)).map (·.name)).getD name

/-- The place of a column in the key, from one; zero if it is not in the key. -/
def keyPlace (t : EmbeddedTable) (name : String) : Nat :=
  match t.primaryKey.findIdx? (sameName name) with
  | some i => i + 1
  | none => 0

/-- Whether the key is a single integer column, which numbers the rows. -/
def keyIsRowNumber (t : EmbeddedTable) : Bool :=
  match t.primaryKey with
  | [name] => t.columns.any fun c => sameName c.name name && sameName c.type "integer"
  | _ => false

def columnRows (t : EmbeddedTable) : List (List Cell) :=
  t.columns.mapIdx fun i c =>
    [.integer i, .text c.name, .text c.type, .integer (if c.notNull then 1 else 0),
      if c.initial = "" then .null else .text c.initial, .integer (t.keyPlace c.name)]

def keyIndexName (t : EmbeddedTable) : String :=
  "sqlite_autoindex_" ++ t.name ++ "_1"

/-- All indexes with the columns that they are on, the index of the key included. -/
def allIndexes (t : EmbeddedTable) : List Index :=
  (if t.primaryKey.isEmpty || t.keyIsRowNumber then []
    else [⟨t.keyIndexName, t.primaryKey, true, true⟩]) ++ t.indexes

def indexRows (t : EmbeddedTable) : List (List Cell) :=
  t.allIndexes.map fun i =>
    [.text i.name, .integer (if i.unique then 1 else 0), .text (if i.primary then "pk" else "c")]

def foreignKeyRows (t : EmbeddedTable) : List (List Cell) :=
  t.foreignKeys.reverse.mapIdx fun i k =>
    [.integer i, .text (t.columnName k.column), .text k.table,
      if k.target = "" then .null else .text k.target]

def columnDefinition (t : EmbeddedTable) (c : EmbeddedColumn) : String :=
  "\"" ++ c.name ++ "\" " ++ c.type
    ++ (if t.autoIncrement && t.keyPlace c.name > 0 then " PRIMARY KEY AUTOINCREMENT" else "")
    ++ (if c.notNull then " NOT NULL" else "")
    ++ (if c.initial = "" then "" else " DEFAULT " ++ c.initial)

def foreignKeyDefinition (k : EmbeddedForeignKey) : String :=
  "FOREIGN KEY (\"" ++ k.column ++ "\") REFERENCES \"" ++ k.table ++ "\""
    ++ (if k.target = "" then "" else " (\"" ++ k.target ++ "\")")

def definition (t : EmbeddedTable) : String :=
  let key :=
    if t.primaryKey.isEmpty || t.autoIncrement then []
    else ["PRIMARY KEY (" ++ String.intercalate ", " (t.primaryKey.map fun n => "\"" ++ n ++ "\"")
      ++ ")"]
  "CREATE TABLE \"" ++ t.name ++ "\" ("
    ++ String.intercalate ", "
      (t.columns.map t.columnDefinition ++ key ++ t.foreignKeys.map foreignKeyDefinition)
    ++ ")"

end EmbeddedTable

namespace EmbeddedDatabase

def find? (d : EmbeddedDatabase) (name : String) : Option EmbeddedTable :=
  d.tables.find? (sameName ·.name name)

def drop (d : EmbeddedDatabase) (name : String) : EmbeddedDatabase :=
  ⟨d.tables.filter fun t => !sameName t.name name⟩

/-- The database with a table, unless it has one of that name. -/
def create (d : EmbeddedDatabase) (t : EmbeddedTable) : EmbeddedDatabase :=
  if (d.find? t.name).isSome then d else ⟨d.tables ++ [t]⟩

def withRows (d : EmbeddedDatabase) (name : String) (rows : List (List String)) :
    EmbeddedDatabase :=
  ⟨d.tables.map fun t => if sameName t.name name then { t with rows := rows } else t⟩

def rows (d : EmbeddedDatabase) (name : String) : Except Failure (List (List String)) :=
  match d.find? name with
  | some t => .ok t.rows
  | none => .error (.foreign ("SQL logic error: no such table: " ++ name ++ " (1)"))

/-- Whether a table is kept by the database for itself. -/
def isInternal (name : String) : Bool :=
  "sqlite".toList.isPrefixOf (plainLower name).toList && 6 < name.length

/-- The names of the tables, in ascending order. -/
def tableNames (d : EmbeddedDatabase) : List String :=
  Text.sort ((d.tables.map (·.name)).filter fun name => !isInternal name)

def indexColumns (d : EmbeddedDatabase) (index : String) : List String :=
  (d.tables.findSome? fun t =>
    (t.allIndexes.find? (sameName ·.name index)).map fun i => i.columns.map t.columnName).getD []

def answer (d : EmbeddedDatabase) : Query → QueryRows
  | .tables => ⟨d.tableNames.map fun name => [.text name], none⟩
  | .columns table => ⟨((d.find? table).map (·.columnRows)).getD [], none⟩
  | .indexes table => ⟨((d.find? table).map (·.indexRows)).getD [], none⟩
  | .indexColumns index => ⟨(d.indexColumns index).map fun name => [.text name], none⟩
  | .foreignKeys table => ⟨((d.find? table).map (·.foreignKeyRows)).getD [], none⟩
  | .definition table =>
    ⟨((d.tables.find? (·.name = table)).map fun t => [[.text t.definition]]).getD [], none⟩

def source (d : EmbeddedDatabase) : Source where
  dialect := .sqlite
  database := ""
  answer := fun q => .ok (d.answer q)

end EmbeddedDatabase

end CqlGateway.Catalog

import CqlGateway.Catalog.Connection
import CqlGateway.Catalog.Document
import CqlGateway.Catalog.Embedded
import CqlGateway.Catalog.Script
import CqlGateway.Files

/-!
# Databases in files

An embedded database is kept in a file as a document behind a line that tells what it is. A file
without text is a database without tables, and so is a file that is made when it is opened. Any
other file can be opened but not asked.
-/

namespace CqlGateway.Catalog

/-! ### Documents -/

def EmbeddedColumn.toJson (c : EmbeddedColumn) : Json :=
  .object [("name", .text c.name), ("type", .text c.type), ("not_null", .bool c.notNull),
    ("default", .text c.initial)]

def EmbeddedForeignKey.toJson (k : EmbeddedForeignKey) : Json :=
  .object [("column", .text k.column), ("table", .text k.table), ("to", .text k.target)]

def embeddedIndexJson (i : Index) : Json :=
  .object [("name", .text i.name), ("columns", .texts i.columns), ("unique", .bool i.unique)]

def EmbeddedTable.toJson (t : EmbeddedTable) : Json :=
  .object [("name", .text t.name), ("columns", .array (t.columns.map EmbeddedColumn.toJson)),
    ("primary_key", .texts t.primaryKey), ("autoincrement", .bool t.autoIncrement),
    ("foreign_keys", .array (t.foreignKeys.map EmbeddedForeignKey.toJson)),
    ("indexes", .array (t.indexes.map embeddedIndexJson)),
    ("rows", .array (t.rows.map .texts))]

def textMember (j : Json) (name : String) : String :=
  match j.member? name with
  | some (.text s) => s
  | _ => ""

def flagMember (j : Json) (name : String) : Bool :=
  match j.member? name with
  | some (.bool b) => b
  | _ => false

def itemsOf : Json → List Json
  | .array items => items
  | _ => []

def itemsMember (j : Json) (name : String) : List Json :=
  ((j.member? name).map itemsOf).getD []

def textsOf (j : Json) : List String :=
  (itemsOf j).map fun
    | .text s => s
    | _ => ""

def textsMember (j : Json) (name : String) : List String :=
  ((j.member? name).map textsOf).getD []

/-- The table that a document describes. What is not mentioned is empty. -/
def EmbeddedTable.ofJson (j : Json) : EmbeddedTable where
  name := textMember j "name"
  columns := (itemsMember j "columns").map fun c =>
    ⟨textMember c "name", textMember c "type", flagMember c "not_null", textMember c "default"⟩
  primaryKey := textsMember j "primary_key"
  autoIncrement := flagMember j "autoincrement"
  foreignKeys := (itemsMember j "foreign_keys").map fun k =>
    ⟨textMember k "column", textMember k "table", textMember k "to"⟩
  indexes := (itemsMember j "indexes").map fun i =>
    { name := textMember i "name", columns := textsMember i "columns",
      unique := flagMember i "unique" }
  rows := (itemsMember j "rows").map textsOf

namespace EmbeddedDatabase

/-- The line in front of the document of a database. -/
def heading : String := "embedded database, form 1\n"

def write (d : EmbeddedDatabase) : String :=
  heading ++ (Json.array (d.tables.map EmbeddedTable.toJson)).write

def read? (text : String) : Option EmbeddedDatabase :=
  if text = "" then some {}
  else if heading.toList.isPrefixOf text.toList then
    match Json.read? (String.ofList (text.toList.drop heading.length)) with
    | some (.array tables) => some ⟨tables.map EmbeddedTable.ofJson⟩
    | _ => none
  else none

end EmbeddedDatabase

/-! ### Opening -/

/-- A database that was opened: the file that it is in, if it is in one, and what it holds, if the
file holds a database. -/
structure OpenDatabase where
  path? : Option String
  content : Except Failure EmbeddedDatabase

def notDatabaseFailure : Failure :=
  .foreign "file is not a database (26)"

/-- The failure for a path at which there can be no file. -/
def cannotOpenFailure : Failure :=
  .wrapped "failed to ping sqlite" (.foreign "unable to open database file: out of memory (14)")

/-- The failure for a database behind a server. -/
def unreachableFailure (d : Dialect) : Failure :=
  .wrapped ("failed to ping " ++ d.name) (.foreign "connection refused")

/-- Open the database in a file, which is made if it is not there. -/
def openFile (files : Files) (path : String) : Except Failure (OpenDatabase × Files) :=
  if path = ":memory:" then .ok (⟨none, .ok {}⟩, files)
  else if !files.canHold path then .error cannotOpenFailure
  else
    match files.get? path with
    | none => .ok (⟨some path, .ok {}⟩, files.put path "")
    | some text =>
      match EmbeddedDatabase.read? text with
      | some d => .ok (⟨some path, .ok d⟩, files)
      | none => .ok (⟨some path, .error notDatabaseFailure⟩, files)

def Connection.open (c : Connection) (files : Files) : Except Failure (OpenDatabase × Files) :=
  match Dialect.ofName c.type with
  | .error f => .error f
  | .ok .sqlite => openFile files c.file
  | .ok d => .error (unreachableFailure d)

namespace OpenDatabase

/-- The files after the database has got another content. -/
def save (o : OpenDatabase) (d : EmbeddedDatabase) (files : Files) : Files :=
  match o.path? with
  | some path => files.put path d.write
  | none => files

def source (o : OpenDatabase) : Source :=
  match o.content with
  | .ok d => d.source
  | .error f => ⟨.sqlite, "", fun _ => .error f⟩

def tables (o : OpenDatabase) : TableSource where
  names := o.source.tables.result
  table := fun name => (o.source.table name).result

end OpenDatabase

end CqlGateway.Catalog

import CqlGateway.Catalog.Difference
import CqlGateway.Catalog.Document
import CqlGateway.Catalog.Embedded
import CqlGateway.Catalog.Script
import CqlGateway.Time.Timestamp

/-!
# Snapshots of catalogs

A snapshot is a catalog at a point in time. It is saved in an embedded database: a table for the
time and the source of the snapshot, and a table with the document of each table definition.
-/

namespace CqlGateway.Catalog

/-- A catalog at a point in time. -/
structure Snapshot where
  createdAt : Int
  source : String
  tables : Tables
  deriving DecidableEq, Repr

namespace Snapshot

def readTables (source : TableSource) : Tables → List String → Except Failure Tables
  | c, [] => .ok c
  | c, name :: names =>
    match source.read name with
    | .error f => .error f
    | .ok t => readTables source (c.insert name t) names

def capture (source : TableSource) (origin : String) (only : List String) (now : Int) :
    Except Failure Snapshot := do
  let names ← source.chosen only
  return ⟨now, origin, ← readTables source [] names⟩

/-! ### Saving -/

def metadataTable : EmbeddedTable where
  name := "metadata"
  columns := [⟨"key", "TEXT", false, ""⟩, ⟨"value", "TEXT", true, ""⟩]
  primaryKey := ["key"]

def schemasTable : EmbeddedTable where
  name := "table_schemas"
  columns := [⟨"table_name", "TEXT", false, ""⟩, ⟨"schema_json", "TEXT", true, ""⟩]
  primaryKey := ["table_name"]

def save (s : Snapshot) : EmbeddedDatabase :=
  ⟨[{ metadataTable with
      rows := [["created_at", Timestamp.text s.createdAt], ["source", s.source]] },
    { schemasTable with
      rows := s.tables.map fun (name, t) => [name, t.toJson.write] }]⟩

/-! ### Loading -/

/-- The value of a key, empty if there is none. -/
def metadata (rows : List (List String)) (key : String) : String :=
  (rows.reverse.findSome? fun
    | [k, value] => if k = key then some value else none
    | _ => none).getD ""

/-- The point in time that a text gives; none is given by the empty text. -/
def readTime (text : String) : Except Failure Int :=
  if text = "" then .ok Timestamp.absent
  else
    match Timestamp.read? text with
    | some time => .ok time
    | none =>
      .error (.wrapped "invalid snapshot timestamp"
        (.foreign ("parsing time " ++ Text.quote text)))

def readSchema (name document : String) : Except Failure TableSchema :=
  let context := "failed to unmarshal schema of " ++ name
  match Json.read document with
  | .error fault => .error (Statement.documentFailure context fault)
  | .ok json =>
    match TableSchema.ofJson json with
    | .ok t => .ok t
    | .error fault => .error (Statement.readingFailure context fault)

def readRows : Tables → List (List String) → Except Failure Tables
  | c, [name, document] :: rows =>
    match readSchema name document with
    | .error f => .error f
    | .ok t => readRows (c.insert name t) rows
  | c, _ :: rows => readRows c rows
  | c, [] => .ok c

def rowsOf (d : EmbeddedDatabase) (table context : String) :
    Except Failure (List (List String)) :=
  match d.rows table with
  | .ok rows => .ok rows
  | .error f => .error (.wrapped context f)

def load (d : EmbeddedDatabase) : Except Failure Snapshot := do
  let about ← rowsOf d "metadata" "failed to query metadata"
  let time ← readTime (metadata about "created_at")
  let rows ← rowsOf d "table_schemas" "failed to query table schemas"
  return ⟨time, metadata about "source", ← readRows [] rows⟩

/-- The failure for a file that is not there. -/
def missingFailure (path : String) : Failure :=
  .plain ("snapshot file does not exist: " ++ path)

end Snapshot

end CqlGateway.Catalog

import CqlGateway.Catalog.Table
import CqlGateway.Text.Sorted

/-!
# Differences between catalogs

Two catalogs are compared table by table. The columns, secondary indexes and foreign keys of two
versions of a table are matched by their names; the primary key is compared as a whole. Tables
without a difference are left out.
-/

namespace CqlGateway

/-- Table definitions by name. -/
abbrev Catalog.Tables := List (String × TableSchema)

namespace Catalog.Tables

def names (c : Catalog.Tables) : List String :=
  c.map (·.1)

def get? (c : Catalog.Tables) (name : String) : Option TableSchema :=
  c.lookup name

/-- Put a table in, in place of one of the same name. -/
def insert (c : Catalog.Tables) (name : String) (t : TableSchema) : Catalog.Tables :=
  match c with
  | [] => [(name, t)]
  | (other, u) :: rest =>
    if name = other then (name, t) :: rest
    else if name < other then (name, t) :: (other, u) :: rest
    else (other, u) :: insert rest name t

end Catalog.Tables

inductive ChangeAction where
  | drop
  | add
  | modify
  deriving DecidableEq, Repr

def ChangeAction.name : ChangeAction → String
  | .drop => "DROP"
  | .add => "ADD"
  | .modify => "MODIFY"

/-- A part of a table that is in one version only, or differs between the versions. -/
inductive Change (α : Type) where
  | dropped (name : String) (old : α)
  | added (name : String) (new : α)
  | modified (name : String) (old new : α)
  deriving DecidableEq, Repr

namespace Change

variable {α : Type}

def name : Change α → String
  | .dropped name _ | .added name _ | .modified name _ _ => name

def action : Change α → ChangeAction
  | .dropped _ _ => .drop
  | .added _ _ => .add
  | .modified _ _ _ => .modify

def old? : Change α → Option α
  | .dropped _ old | .modified _ old _ => some old
  | .added _ _ => none

def new? : Change α → Option α
  | .added _ new | .modified _ _ new => some new
  | .dropped _ _ => none

end Change

/-- The last item of a key. -/
def lastOf? {α : Type} (key : α → String) (k : String) (items : List α) : Option α :=
  items.reverse.find? (key · = k)

/-- The keys of items, in ascending order. -/
def keysOf {α : Type} (key : α → String) (items : List α) : List String :=
  Text.sortOnce (items.map key)

/-- The changes between two lists, matched by key: what was dropped, what was added and what was
modified, each in the order of keys. -/
def changes {α : Type} (key : α → String) (equal : α → α → Bool) (old new : List α) :
    List (Change α) :=
  let dropped := (keysOf key old).filterMap fun k =>
    match lastOf? key k old, lastOf? key k new with
    | some o, none => some (.dropped k o)
    | _, _ => none
  let added := (keysOf key new).filterMap fun k =>
    match lastOf? key k old, lastOf? key k new with
    | none, some n => some (.added k n)
    | _, _ => none
  let modified := (keysOf key new).filterMap fun k =>
    match lastOf? key k old, lastOf? key k new with
    | some o, some n => if equal o n then none else some (.modified k o n)
    | _, _ => none
  dropped ++ added ++ modified

/-- Whether two columns are declared alike. Their positions do not matter. -/
def Column.declaredAlike (a b : Column) : Bool :=
  Text.equalFold a.sourceType b.sourceType && a.nullable = b.nullable
    && a.autoIncrement = b.autoIncrement && a.defaultValue = b.defaultValue

/-- Whether two indexes are alike but for their names. -/
def Index.declaredAlike (a b : Index) : Bool :=
  a.unique = b.unique && a.columns = b.columns

/-- The indexes of a table other than the primary one. -/
def TableSchema.secondaryIndexes (t : TableSchema) : List Index :=
  t.indexes.filter fun i => !i.primary

structure TableAlteration where
  old : TableSchema
  new : TableSchema
  columns : List (Change Column)
  indexes : List (Change Index)
  foreignKeys : List (Change ForeignKey)
  keyChanged : Bool
  deriving DecidableEq, Repr

/-- The differences between two versions of a table, of which there may be none. -/
def TableAlteration.between (old new : TableSchema) : TableAlteration where
  old := old
  new := new
  columns := changes (fun c => Text.lower c.name) Column.declaredAlike old.columns new.columns
  indexes :=
    changes Index.name Index.declaredAlike old.secondaryIndexes new.secondaryIndexes
  foreignKeys := changes ForeignKey.name (· = ·) old.foreignKeys new.foreignKeys
  keyChanged := old.primaryKey ≠ new.primaryKey

def TableAlteration.isEmpty (a : TableAlteration) : Bool :=
  !a.keyChanged && a.columns.isEmpty && a.indexes.isEmpty && a.foreignKeys.isEmpty

/-- A table that is in one catalog only, or differs between the catalogs. -/
inductive TableDifference where
  | added (name : String) (new : TableSchema)
  | dropped (name : String) (old : TableSchema)
  | altered (a : TableAlteration)
  deriving DecidableEq, Repr

namespace TableDifference

def table : TableDifference → String
  | .added name _ | .dropped name _ => name
  | .altered a => a.new.name

def action : TableDifference → ChangeAction
  | .added _ _ => .add
  | .dropped _ _ => .drop
  | .altered _ => .modify

/-- The differences between the versions of the table, if it is in both catalogs. -/
def alteration? : TableDifference → Option TableAlteration
  | .altered a => some a
  | _ => none

def at? (old new : Catalog.Tables) (name : String) : Option TableDifference :=
  match old.get? name, new.get? name with
  | none, none => none
  | none, some n => some (.added name n)
  | some o, none => some (.dropped name o)
  | some o, some n =>
    let a := TableAlteration.between o n
    if a.isEmpty then none else some (.altered a)

end TableDifference

/-- The differences between two catalogs, in the order of table names. -/
def Catalog.Tables.compare (old new : Catalog.Tables) : List TableDifference :=
  (Text.sortOnce (old.names ++ new.names)).filterMap (TableDifference.at? old new)

/-! ### Display -/

/-- Changes for the reader. -/
def changeLines {α : Type} (label : String) (cs : List (Change α)) : List String :=
  if cs.isEmpty then []
  else ("  " ++ label ++ " changes:") :: cs.map fun c => "    - " ++ c.name ++ ": " ++ c.action.name

def TableDifference.lines : TableDifference → List String
  | .added _ new =>
    ["  Action: ADD (new table)", "  Columns: " ++ toString new.columns.length]
  | .dropped _ _ => ["  Action: DROP (removed table)"]
  | .altered a =>
    "  Action: MODIFY" :: (if a.keyChanged then ["  Primary key changed"] else [])
      ++ changeLines "Column" a.columns ++ changeLines "Index" a.indexes
      ++ changeLines "Foreign key" a.foreignKeys

/-- Differences for the reader. -/
def TableDifference.display (ds : List TableDifference) : String :=
  if ds.isEmpty then "No differences found.\n"
  else
    String.join (ds.map fun d =>
      "Table: " ++ d.table ++ "\n" ++ String.join (d.lines.map (· ++ "\n")) ++ "\n")

end CqlGateway

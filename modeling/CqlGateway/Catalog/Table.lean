import CqlGateway.Text.Case

/-!
# Relational tables

Columns, indexes and foreign keys as a relational catalog reports them. The primary key of a
table is that of its primary index; a table without one has the columns flagged as key columns.
-/

namespace CqlGateway

/-- A column, as a statement declares it or a catalog reports it. -/
structure Column where
  name : String := ""
  sourceType : String := ""
  primaryKey : Bool := false
  nullable : Bool := false
  defaultValue : Option String := none
  autoIncrement : Bool := false
  position : Int := 0
  deriving DecidableEq, Repr, Inhabited

/-- The first column of the given name, ignoring case. -/
def Column.find? (columns : List Column) (name : String) : Option Column :=
  columns.find? fun c => Text.equalFold c.name name

structure Index where
  name : String := ""
  columns : List String := []
  unique : Bool := false
  primary : Bool := false
  deriving DecidableEq, Repr, Inhabited

/-- One column of a foreign key constraint. -/
structure ForeignKey where
  name : String := ""
  column : String := ""
  referencedTable : String := ""
  referencedColumn : String := ""
  deriving DecidableEq, Repr, Inhabited

structure TableSchema where
  name : String := ""
  columns : List Column := []
  indexes : List Index := []
  foreignKeys : List ForeignKey := []
  deriving DecidableEq, Repr, Inhabited

namespace TableSchema

/-- The primary key columns, in key order. -/
def primaryKey (t : TableSchema) : List String :=
  match t.indexes.find? (·.primary) with
  | some index => index.columns
  | none => (t.columns.filter (·.primaryKey)).map (·.name)

end TableSchema

end CqlGateway

import CqlGateway.Catalog.Difference
import CqlGateway.Catalog.Script

/-!
# Migrations

A migration is a script that brings a keyspace that was created from one catalog in line with
another one. Changes that have no form in CQL are told in warnings.
-/

namespace CqlGateway.Script

/-- The script with a further statement if that has a form in CQL, and whether it has. -/
def attempt (s : Script) (options : RenderingOptions) (table : String) (statement : Statement) :
    Script × Bool :=
  match s.add options table statement with
  | (next, none) => (next, true)
  | (next, some f) =>
    (next.warn (table ++ ": " ++ statement.kind.name ++ " skipped: " ++ f.diagnostic), false)

/-- The script with a further statement if that has a form in CQL. -/
def attemptAll (options : RenderingOptions) (table : String) (s : Script)
    (statements : List Statement) : Script :=
  statements.foldl (fun s statement => (s.attempt options table statement).1) s

/-- The script with a new table. -/
def addNewTable (options : RenderingOptions) (keyspace : String) (s : Script) (t : TableSchema) :
    Script :=
  match s.attempt options t.name (.createTable (t.createTable keyspace)) with
  | (next, false) => next.skip t.name
  | (next, true) => attemptAll options t.name next ((t.createIndexes keyspace).map .createIndex)

def indexDrops (keyspace table : String) (cs : List (Change Index)) : List Statement :=
  cs.filterMap fun c => c.old?.map fun old =>
    .dropIndex { name := .text old.name, table := ⟨keyspace, table⟩, ifExists := true }

def indexAdditions (keyspace table : String) (cs : List (Change Index)) : List Statement :=
  cs.filterMap fun c => c.new?.map fun new => .createIndex (new.create keyspace table)

/-- The statements that modify columns, one for each. -/
def columnModifications (keyspace table : String) (cs : List (Change Column)) : List Statement :=
  cs.filterMap fun
    | .modified _ _ new =>
      some (.alterTable
        { table := ⟨keyspace, table⟩, specs := some [{ action := "modify", column := new }] })
    | _ => none

def columnSpecs (cs : List (Change Column)) : List AlterSpec :=
  cs.filterMap fun
    | .dropped _ old => some { action := "drop", column := { name := old.name } }
    | .added _ new => some { action := "add", column := new }
    | .modified _ _ _ => none

def columnAlteration (keyspace table : String) (cs : List (Change Column)) : List Statement :=
  if (columnSpecs cs).isEmpty then []
  else [.alterTable { table := ⟨keyspace, table⟩, specs := some (columnSpecs cs) }]

def keyWarning (table : String) : String :=
  table ++ ": primary key changed; CQL cannot alter a primary key, recreate the table"

def foreignKeyChangeWarning (table : String) (c : Change ForeignKey) : String :=
  table ++ ": foreign key " ++ c.name ++ " " ++ c.action.name
    ++ " ignored; CQL has no referential constraints"

/-- The script with the alteration of a table. Indexes are dropped before the columns that they
are on. -/
def alter (options : RenderingOptions) (keyspace : String) (s : Script) (a : TableAlteration) :
    Script :=
  let table := a.new.name
  let s := if a.keyChanged then s.warn (keyWarning table) else s
  let s := attemptAll options table s
    (indexDrops keyspace table a.indexes ++ columnModifications keyspace table a.columns
      ++ columnAlteration keyspace table a.columns ++ indexAdditions keyspace table a.indexes)
  (a.foreignKeys.map (foreignKeyChangeWarning table)).foldl warn s

/-- The script with what a difference calls for. -/
def migrateTable (options : RenderingOptions) (keyspace : String) (s : Script) :
    TableDifference → Script
  | .added _ t => addNewTable options keyspace s t
  | .dropped name _ =>
    (s.attempt options name
      (.dropTable { tables := some [⟨keyspace, name⟩], ifExists := true })).1
  | .altered a => s.alter options keyspace a

def migration (options : RenderingOptions) (keyspace : String) (ds : List TableDifference) :
    Script :=
  ds.foldl (migrateTable options keyspace) {}

end CqlGateway.Script

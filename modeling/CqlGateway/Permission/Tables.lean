import CqlGateway.Catalog.Storage
import CqlGateway.Permission.Grants

/-!
# Permission tables

The granted permissions are kept in two tables of a database, which are made when the authority is
opened for the first time. The rest of the database is not touched.
-/

namespace CqlGateway.Permission

open Catalog (EmbeddedTable EmbeddedDatabase OpenDatabase)

def operationsTable : EmbeddedTable where
  name := "subject_operations"
  columns := [⟨"subject", "VARCHAR(255)", true, ""⟩, ⟨"operation", "VARCHAR(64)", true, ""⟩]
  primaryKey := ["subject", "operation"]

def keyspacesTable : EmbeddedTable where
  name := "subject_keyspaces"
  columns := [⟨"subject", "VARCHAR(255)", true, ""⟩, ⟨"keyspace", "VARCHAR(255)", true, ""⟩]
  primaryKey := ["subject", "keyspace"]

def GrantTable.ofRows (rows : List (List String)) : GrantTable :=
  rows.filterMap fun
    | [subject, value] => some ⟨subject, value⟩
    | _ => none

def GrantTable.rows (t : GrantTable) : List (List String) :=
  t.map fun g => [g.subject, g.value]

def Grants.ofDatabase (d : EmbeddedDatabase) : Grants where
  operations := .ofRows ((d.rows operationsTable.name).toOption.getD [])
  keyspaces := .ofRows ((d.rows keyspacesTable.name).toOption.getD [])

def Grants.store (g : Grants) (d : EmbeddedDatabase) : EmbeddedDatabase :=
  (d.withRows operationsTable.name g.operations.rows).withRows keyspacesTable.name
    g.keyspaces.rows

/-- A database with the tables of permissions, which are made if they are not there. -/
def withTables (o : OpenDatabase) : Except Failure EmbeddedDatabase :=
  match o.content with
  | .ok d => .ok ((d.create operationsTable).create keyspacesTable)
  | .error f => .error (.wrapped "failed to create permission tables" f)

end CqlGateway.Permission

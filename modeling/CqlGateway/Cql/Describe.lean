import CqlGateway.Cql.Identifier
import CqlGateway.Statement.Basic

/-!
# Inspecting the schema

The words `keyspaces`, `databases` and `schemas` are reserved: describing a table of such a name
without a keyspace lists the keyspaces instead. Describing a table without a name lists the
tables.
-/

namespace CqlGateway.Describe

def keyspaceWords : List String :=
  ["keyspaces", "databases", "schemas"]

def allKeyspaces : Describe :=
  { object := "keyspaces" }

def allTables : Describe :=
  { object := "tables" }

def normalize (d : Describe) : Describe :=
  if d.listsKeyspaces then allKeyspaces
  else if d.object = "table" || d.object = "columns" then
    if d.table.keyspace = "" && keyspaceWords.contains (Text.lower (Cql.unquote d.table.name)) then
      allKeyspaces
    else if d.table.name = "" then allTables
    else d
  else d

def cql (d : Describe) : String :=
  if d.object = "keyspaces" then "DESCRIBE KEYSPACES"
  else if d.object = "tables" then "DESCRIBE TABLES"
  else "DESCRIBE TABLE " ++ d.table.cql

end CqlGateway.Describe

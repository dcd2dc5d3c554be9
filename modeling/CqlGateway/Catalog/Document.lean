import CqlGateway.Statement.Reader
import CqlGateway.Statement.Writer

/-!
# Table definitions as documents

A table definition is written as an object with its name, columns, indexes and foreign keys, and
is read from one.
-/

namespace CqlGateway

def Index.fill (i : Index) (slot : String) (n : Node) : Reading Index :=
  match slot with
  | "name" => do return { i with name := ← Reading.text i.name n }
  | "columns" => do return { i with columns := ← Reading.texts n }
  | "unique" => do return { i with unique := ← Reading.flag i.unique n }
  | "primary" => do return { i with primary := ← Reading.flag i.primary n }
  | _ => pure i

def ForeignKey.fill (k : ForeignKey) (slot : String) (n : Node) : Reading ForeignKey :=
  match slot with
  | "name" => do return { k with name := ← Reading.text k.name n }
  | "column" => do return { k with column := ← Reading.text k.column n }
  | "referenced_table" => do return { k with referencedTable := ← Reading.text k.referencedTable n }
  | "referenced_column" =>
    do return { k with referencedColumn := ← Reading.text k.referencedColumn n }
  | _ => pure k

namespace TableSchema

def fill (t : TableSchema) (slot : String) (n : Node) : Reading TableSchema :=
  match slot with
  | "name" => do return { t with name := ← Reading.text t.name n }
  | "columns" => do return { t with columns := ← Reading.list Column.read {} n }
  | "indexes" =>
    do return { t with indexes := ← Reading.list (Reading.record Index.fill) {} n }
  | "foreign_keys" =>
    do
      return { t with
        foreignKeys := ← Reading.list (Reading.record ForeignKey.fill) {} n }
  | _ => pure t

def ofJson (json : Json) : Except ReadingFault TableSchema :=
  (Reading.record fill {} (Node.ofJson json).settledRecord).result

end TableSchema

def Index.toJson (i : Index) : Json :=
  .object [("name", .text i.name), ("columns", .texts i.columns), ("unique", .bool i.unique),
    ("primary", .bool i.primary)]

def ForeignKey.toJson (k : ForeignKey) : Json :=
  .object [("name", .text k.name), ("column", .text k.column),
    ("referenced_table", .text k.referencedTable), ("referenced_column", .text k.referencedColumn)]

def TableSchema.toJson (t : TableSchema) : Json :=
  .object [("name", .text t.name), ("columns", .array (t.columns.map Column.toJson)),
    ("indexes", .array (t.indexes.map Index.toJson)),
    ("foreign_keys", .array (t.foreignKeys.map ForeignKey.toJson))]

end CqlGateway

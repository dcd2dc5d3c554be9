import CqlGateway.Statement.Basic
import CqlGateway.Statement.ExprReader

/-!
# Reading statements

The document of a statement is an object whose `kind` names the kind of the statement and whose
other members fill the slots of that kind, or a list that holds just one such object.
-/

namespace CqlGateway

/-! ### The slots of each record -/

def Column.fill (c : Column) (slot : String) (n : Node) : Reading Column :=
  match slot with
  | "name" => do return { c with name := ← Reading.text c.name n }
  | "type" => do return { c with sourceType := ← Reading.text c.sourceType n }
  | "primary_key" => do return { c with primaryKey := ← Reading.flag c.primaryKey n }
  | "nullable" => do return { c with nullable := ← Reading.flag c.nullable n }
  | "default_value" => do
    return { c with defaultValue := ← Reading.optionalText c.defaultValue n }
  | "auto_increment" => do return { c with autoIncrement := ← Reading.flag c.autoIncrement n }
  | "position" => do return { c with position := ← Reading.integer c.position n }
  | _ => pure c

def Column.read : Column → Node → Reading Column :=
  Reading.record Column.fill

def AlterSpec.fill (s : AlterSpec) (slot : String) (n : Node) : Reading AlterSpec :=
  match slot with
  | "action" => do return { s with action := ← Reading.text s.action n }
  | "column" => do return { s with column := ← Column.read s.column n }
  | "old_name" => do return { s with oldName := ← Reading.text s.oldName n }
  | "new_name" => do return { s with newName := ← Reading.text s.newName n }
  | _ => pure s

def IndexColumn.fill (c : IndexColumn) (slot : String) (n : Node) : Reading IndexColumn :=
  match slot with
  | "name" => do return { c with name := ← Reading.text c.name n }
  | "expr" => do return { c with expr := ← Expr.slot n (Expr.read n) }
  | "desc" => do return { c with desc := ← Reading.flag c.desc n }
  | _ => pure c

def Assignment.fill (a : Assignment) (slot : String) (n : Node) : Reading Assignment :=
  match slot with
  | "column" => do return { a with column := ← Reading.text a.column n }
  | "value" => do return { a with value := ← Expr.slot n (Expr.read n) }
  | _ => pure a

def Reading.texts : Node → Reading (List String) :=
  Reading.list Reading.text ""

def TableRef.readSources (n : Node) : Reading (List TableRef) := do
  return (← TableRef.readList n).getD []

/-! ### The slots of each kind of statement -/

def CreateKeyspace.fill (s : CreateKeyspace) (slot : String) (n : Node) :
    Reading CreateKeyspace :=
  match slot with
  | "name" => do return { s with name := ← Reading.text s.name n }
  | "if_not_exists" => do return { s with ifNotExists := ← Reading.flag s.ifNotExists n }
  | "options" => do return { s with options := ← Reading.options s.options n }
  | _ => pure s

def AlterKeyspace.fill (s : AlterKeyspace) (slot : String) (n : Node) : Reading AlterKeyspace :=
  match slot with
  | "name" => do return { s with name := ← Reading.text s.name n }
  | "options" => do return { s with options := ← Reading.options s.options n }
  | _ => pure s

def DropKeyspace.fill (s : DropKeyspace) (slot : String) (n : Node) : Reading DropKeyspace :=
  match slot with
  | "name" => do return { s with name := ← Reading.text s.name n }
  | "if_exists" => do return { s with ifExists := ← Reading.flag s.ifExists n }
  | _ => pure s

def Use.fill (s : Use) (slot : String) (n : Node) : Reading Use :=
  match slot with
  | "keyspace" => do return { s with keyspace := ← Reading.text s.keyspace n }
  | _ => pure s

def Describe.fill (s : Describe) (slot : String) (n : Node) : Reading Describe :=
  match slot with
  | "object" => do return { s with object := ← Reading.text s.object n }
  | "table" => do return { s with table := ← s.table.read n }
  | _ => pure s

def CreateTable.fill (s : CreateTable) (slot : String) (n : Node) : Reading CreateTable :=
  match slot with
  | "table" => do return { s with table := ← s.table.read n }
  | "if_not_exists" => do return { s with ifNotExists := ← Reading.flag s.ifNotExists n }
  | "columns" => do
    return { s with columns := ← Reading.optionalList Column.read {} n }
  | "primary_key" => do return { s with primaryKey := ← Reading.texts n }
  | _ => pure s

def AlterTable.fill (s : AlterTable) (slot : String) (n : Node) : Reading AlterTable :=
  match slot with
  | "table" => do return { s with table := ← s.table.read n }
  | "specs" => do
    return { s with specs := ← Reading.optionalList (Reading.record AlterSpec.fill) {} n }
  | _ => pure s

def DropTable.fill (s : DropTable) (slot : String) (n : Node) : Reading DropTable :=
  match slot with
  | "tables" => do
    return { s with tables := ← Reading.optionalList TableName.read {} n }
  | "if_exists" => do return { s with ifExists := ← Reading.flag s.ifExists n }
  | _ => pure s

def TruncateTable.fill (s : TruncateTable) (slot : String) (n : Node) : Reading TruncateTable :=
  match slot with
  | "table" => do return { s with table := ← s.table.read n }
  | _ => pure s

def CreateIndex.fill (s : CreateIndex) (slot : String) (n : Node) : Reading CreateIndex :=
  match slot with
  | "name" => do return { s with name := ← Reading.text s.name n }
  | "table" => do return { s with table := ← s.table.read n }
  | "columns" => do
    return { s with
      columns := ← Reading.optionalList (Reading.record IndexColumn.fill) {} n }
  | "unique" => do return { s with unique := ← Reading.flag s.unique n }
  | "if_not_exists" => do return { s with ifNotExists := ← Reading.flag s.ifNotExists n }
  | "where" => do return { s with filter := ← Expr.slot n (Expr.read n) }
  | "include" => do return { s with included := ← Reading.texts n }
  | _ => pure s

def DropIndex.fill (s : DropIndex) (slot : String) (n : Node) : Reading DropIndex :=
  match slot with
  | "name" => do return { s with name := ← Reading.raw n }
  | "table" => do return { s with table := ← s.table.read n }
  | "if_exists" => do return { s with ifExists := ← Reading.flag s.ifExists n }
  | _ => pure s

def CreateView.fill (s : CreateView) (slot : String) (n : Node) : Reading CreateView :=
  match slot with
  | "name" => do return { s with name := ← s.name.read n }
  | "or_replace" => do return { s with orReplace := ← Reading.flag s.orReplace n }
  | "if_not_exists" => do return { s with ifNotExists := ← Reading.flag s.ifNotExists n }
  | "definition" => do
    let query := Select.read (s.definition.getD Select.blank) n
    return { s with definition := ← Select.slot n query }
  | _ => pure s

def DropView.fill (s : DropView) (slot : String) (n : Node) : Reading DropView :=
  match slot with
  | "name" => do return { s with name := ← s.name.read n }
  | "if_exists" => do return { s with ifExists := ← Reading.flag s.ifExists n }
  | _ => pure s

def Insert.fill (s : Insert) (slot : String) (n : Node) : Reading Insert :=
  match slot with
  | "table" => do return { s with table := ← s.table.read n }
  | "columns" => do return { s with columns := ← Reading.texts n }
  | "values" => do return { s with values := ← Reading.raw n }
  | "select" => do
    let query := Select.read (s.query.getD Select.blank) n
    return { s with query := ← Select.slot n query }
  | _ => pure s

def Update.fill (s : Update) (slot : String) (n : Node) : Reading Update :=
  match slot with
  | "table" => do return { s with table := ← s.table.read n }
  | "from" => do return { s with sources := ← TableRef.readSources n }
  | "set" => do
    return { s with
      assignments := ← Reading.optionalList (Reading.record Assignment.fill) {} n }
  | "where" => do return { s with filter := ← Expr.slot n (Expr.read n) }
  | "order_by" => do return { s with orderBy := ← OrderItem.readList n }
  | "limit" => do return { s with limit := ← Reading.raw n }
  | _ => pure s

def Delete.fill (s : Delete) (slot : String) (n : Node) : Reading Delete :=
  match slot with
  | "table" => do return { s with table := ← s.table.read n }
  | "columns" => do return { s with columns := ← Reading.texts n }
  | "from" => do return { s with sources := ← TableRef.readSources n }
  | "where" => do return { s with filter := ← Expr.slot n (Expr.read n) }
  | "order_by" => do return { s with orderBy := ← OrderItem.readList n }
  | "limit" => do return { s with limit := ← Reading.raw n }
  | _ => pure s

/-! ### Statements -/

namespace Statement

def read (kind : StatementKind) (n : Node) : Reading Statement :=
  match kind with
  | .createKeyspace => .createKeyspace <$> Reading.record CreateKeyspace.fill {} n
  | .alterKeyspace => .alterKeyspace <$> Reading.record AlterKeyspace.fill {} n
  | .dropKeyspace => .dropKeyspace <$> Reading.record DropKeyspace.fill {} n
  | .use => .use <$> Reading.record Use.fill {} n
  | .describe => .describe <$> Reading.record Describe.fill {} n
  | .createTable => .createTable <$> Reading.record CreateTable.fill {} n
  | .alterTable => .alterTable <$> Reading.record AlterTable.fill {} n
  | .dropTable => .dropTable <$> Reading.record DropTable.fill {} n
  | .truncateTable => .truncateTable <$> Reading.record TruncateTable.fill {} n
  | .createIndex => .createIndex <$> Reading.record CreateIndex.fill {} n
  | .dropIndex => .dropIndex <$> Reading.record DropIndex.fill {} n
  | .createView => .createView <$> Reading.record CreateView.fill {} n
  | .dropView => .dropView <$> Reading.record DropView.fill {} n
  | .select => .select <$> Select.read Select.blank n
  | .insert => .insert <$> Reading.record Insert.fill {} n
  | .update => .update <$> Reading.record Update.fill {} n
  | .delete => .delete <$> Reading.record Delete.fill {} n

def documentFailure (context : String) (fault : Json.Fault) : Failure :=
  .wrapped context (.foreign fault.message)

def fillKind (name : String) (slot : String) (n : Node) : Reading String :=
  if slot = "kind" then Reading.text name n else pure name

def readingFailure (context : String) : ReadingFault → Failure
  | .mismatch => documentFailure context .malformed
  | .rejected reason => .wrapped context reason.failure

def kindName (n : Node) : Except Failure String :=
  match (Reading.record fillKind "" n).result with
  | .ok name => .ok name
  | .error fault => .error (readingFailure "failed to decode statement envelope" fault)

def ofNode (n : Node) : Except Failure Statement := do
  let name ← kindName n
  if name = "" then throw (.invalid "statement has no kind")
  match StatementKind.ofName? (Text.lower name) with
  | none => throw (.invalid ("unknown statement kind " ++ Text.quote name))
  | some kind =>
    match (read kind n.settledRecord).result with
    | .ok s => return s
    | .error fault =>
      throw (readingFailure ("failed to decode " ++ kind.name ++ " statement") fault)

/-- The document that a text holds, or the only item of the list that it holds. -/
def documentOf (text : String) : Except Failure Json :=
  let cs := Text.trimChars text.toList
  match Json.read (String.ofList cs) with
  | .ok (.array [item]) => .ok item
  | .ok (.array items) =>
    .error (.invalid ("expected exactly one statement, got " ++ toString items.length))
  | .ok json => .ok json
  | .error fault =>
    if cs.head? = some '[' then .error (documentFailure "failed to decode statement list" fault)
    else .error (documentFailure "failed to decode statement envelope" fault)

def ofText (text : String) : Except Failure Statement := do
  ofNode (.ofJson (← documentOf text))

end Statement

end CqlGateway

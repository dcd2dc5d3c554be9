import CqlGateway.Failure
import CqlGateway.Statement.Basic
import CqlGateway.Statement.Node

/-!
# Writing statements

A statement is written as an object with its members sorted by name, one of them the `kind`. The
members that are absent are left out. A document that is nested too deep to be read has no text.
-/

namespace CqlGateway

/-- A member that is left out when the expression is missing. -/
def exprMember (name : String) (e : Expr) : Option (List (String × Json)) :=
  match e with
  | .missing => some []
  | .of _ => e.toJson?.map fun json => [(name, json)]

/-- A member that is left out when the node is absent. -/
def nodeMember (name : String) (n : Node) : Option (List (String × Json)) :=
  match n with
  | .null => some []
  | _ => n.toJson?.map fun json => [(name, json)]

/-- A member that is left out when the list is empty. -/
def listMember (name : String) (items : List Json) : List (String × Json) :=
  if items.isEmpty then [] else [(name, .array items)]

/-- The document of a list, null if it was not given. -/
def optionalArray {α : Type} (f : α → Json) : Option (List α) → Json
  | none => .null
  | some items => .array (items.map f)

/-- The member for options, left out when there are none. -/
def optionsMember (options : List (String × String)) : List (String × Json) :=
  if options.isEmpty then []
  else [("options", .object (options.map fun (name, s) => (name, .text s)))]

def TableName.toJson (t : TableName) : Json :=
  .object t.members

def Column.toJson (c : Column) : Json :=
  .object (
    [("name", .text c.name), ("type", .text c.sourceType)]
    ++ flagMember "primary_key" c.primaryKey ++ flagMember "nullable" c.nullable
    ++ (match c.defaultValue with | some s => [("default_value", .text s)] | none => [])
    ++ flagMember "auto_increment" c.autoIncrement
    ++ (if c.position = 0 then [] else [("position", .int c.position)]))

def AlterSpec.toJson (s : AlterSpec) : Json :=
  .object (
    [("action", .text s.action), ("column", s.column.toJson)]
    ++ textMember "old_name" s.oldName ++ textMember "new_name" s.newName)

def IndexColumn.toJson? (c : IndexColumn) : Option Json := do
  let expr ← exprMember "expr" c.expr
  return .object (textMember "name" c.name ++ expr ++ flagMember "desc" c.desc)

def Assignment.toJson? (a : Assignment) : Option Json := do
  return .object [("column", .text a.column), ("value", ← a.value.toJson?)]

/-- The documents of a list, null if it was not given. -/
def optionalArray? {α : Type} (f : α → Option Json) : Option (List α) → Option Json
  | none => some .null
  | some items => (items.mapM f).map .array

namespace Statement

/-- The members of a statement besides its kind. -/
def members? : Statement → Option (List (String × Json))
  | .createKeyspace s =>
    some ([("name", .text s.name)] ++ flagMember "if_not_exists" s.ifNotExists
      ++ optionsMember s.options)
  | .alterKeyspace s => some ([("name", .text s.name)] ++ optionsMember s.options)
  | .dropKeyspace s => some ([("name", .text s.name)] ++ flagMember "if_exists" s.ifExists)
  | .use s => some [("keyspace", .text s.keyspace)]
  | .describe s => some [("object", .text s.object), ("table", s.table.toJson)]
  | .createTable s =>
    some ([("table", s.table.toJson)] ++ flagMember "if_not_exists" s.ifNotExists
      ++ [("columns", optionalArray Column.toJson s.columns)]
      ++ listMember "primary_key" (s.primaryKey.map .text))
  | .alterTable s =>
    some [("table", s.table.toJson), ("specs", optionalArray AlterSpec.toJson s.specs)]
  | .dropTable s =>
    some ([("tables", optionalArray TableName.toJson s.tables)]
      ++ flagMember "if_exists" s.ifExists)
  | .truncateTable s => some [("table", s.table.toJson)]
  | .createIndex s => do
    let columns ← optionalArray? IndexColumn.toJson? s.columns
    let filter ← exprMember "where" s.filter
    return textMember "name" s.name ++ [("table", s.table.toJson), ("columns", columns)]
      ++ flagMember "unique" s.unique ++ flagMember "if_not_exists" s.ifNotExists
      ++ filter ++ listMember "include" (s.included.map .text)
  | .dropIndex s => do
    return [("name", ← s.name.toJson?), ("table", s.table.toJson)]
      ++ flagMember "if_exists" s.ifExists
  | .createView s => do
    let definition ← Select.optionToJson? s.definition
    return [("name", s.name.toJson)] ++ flagMember "or_replace" s.orReplace
      ++ flagMember "if_not_exists" s.ifNotExists ++ [("definition", definition)]
  | .dropView s => some ([("name", s.name.toJson)] ++ flagMember "if_exists" s.ifExists)
  | .select s => do
    match ← s.toJson? with
    | .object members => return members
    | _ => none
  | .insert s => do
    let values ← nodeMember "values" s.values
    let query ← Select.optionToJson? s.query
    return [("table", s.table.toJson)] ++ listMember "columns" (s.columns.map .text) ++ values
      ++ (if s.query.isSome then [("select", query)] else [])
  | .update s => do
    let sources ← TableRef.listToJson? s.sources
    let assignments ← optionalArray? Assignment.toJson? s.assignments
    let filter ← exprMember "where" s.filter
    let order ← OrderItem.listToJson? s.orderBy
    let limit ← nodeMember "limit" s.limit
    return [("table", s.table.toJson)] ++ listMember "from" sources
      ++ [("set", assignments)] ++ filter ++ listMember "order_by" order ++ limit
  | .delete s => do
    let sources ← TableRef.listToJson? s.sources
    let filter ← exprMember "where" s.filter
    let order ← OrderItem.listToJson? s.orderBy
    let limit ← nodeMember "limit" s.limit
    return [("table", s.table.toJson)] ++ listMember "columns" (s.columns.map .text)
      ++ listMember "from" sources ++ filter ++ listMember "order_by" order ++ limit

/-- The document of a statement. There is none if it holds a number whose text is no number. -/
def toJson? (s : Statement) : Option Json := do
  return .object (sortMembers (("kind", .text s.kind.name) :: (← s.members?)))

/-- The text of a statement. There is none if its document is nested deeper than documents that
are read may be. -/
def toText? (s : Statement) : Option String := do
  let json ← s.toJson?
  if json.depth ≤ Json.depthLimit then some json.write else none

/-- The failure for a document that is nested too deep. -/
def depthFailure : Failure :=
  .foreign "exceeded max depth"

end Statement

end CqlGateway

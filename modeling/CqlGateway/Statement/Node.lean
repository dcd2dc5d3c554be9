import CqlGateway.Json.Reader
import CqlGateway.Json.Writer
import CqlGateway.Number.Decimal
import CqlGateway.Statement.Tree
import CqlGateway.Text.Base64
import CqlGateway.Text.Case

/-!
# Reading raw nodes

A raw node stands for a document, so it has a JSON form: the members of its objects are sorted by
name, of several members of one name the last is kept, and expressions are written as objects.
From a node one can read its type, the items of a list, an integer, or a name.
-/

namespace CqlGateway

/-! ### Members in canonical order -/

/-- Put a member into a list sorted by name, in place of a member of the same name. -/
def insertMember {α : Type} (name : String) (value : α) : List (String × α) → List (String × α)
  | [] => [(name, value)]
  | (key, old) :: rest =>
    if name = key then (name, value) :: rest
    else if name < key then (name, value) :: (key, old) :: rest
    else (key, old) :: insertMember name value rest

/-- Members sorted by name, of several members of one name the last. -/
def sortMembers {α : Type} (members : List (String × α)) : List (String × α) :=
  members.foldl (fun sorted (name, value) => insertMember name value sorted) []

namespace Node

mutual

def ofJson : Json → Node
  | .null => .null
  | .bool b => .bool b
  | .number n => .number n
  | .text s => .text s
  | .array items => .list (ofItems items)
  | .object members => .object (ofMembers members)

def ofItems : List Json → List Node
  | [] => []
  | v :: vs => ofJson v :: ofItems vs

def ofMembers : List (String × Json) → List (String × Node)
  | [] => []
  | (name, v) :: ms => (name, ofJson v) :: ofMembers ms

end

mutual

/-- A node with the members of its objects in canonical order. -/
def canonical : Node → Node
  | .list items => .list (canonicalItems items)
  | .object members => .object (sortMembers (canonicalMembers members))
  | n => n

def canonicalItems : List Node → List Node
  | [] => []
  | n :: ns => n.canonical :: canonicalItems ns

def canonicalMembers : List (String × Node) → List (String × Node)
  | [] => []
  | (name, n) :: ms => (name, n.canonical) :: canonicalMembers ms

end

end Node

/-! ### Documents of nodes and expressions -/

/-- A member that is left out when its text is empty. -/
def textMember (name : String) (s : String) : List (String × Json) :=
  if s = "" then [] else [(name, .text s)]

/-- A member that is left out unless it holds. -/
def flagMember (name : String) (b : Bool) : List (String × Json) :=
  if b then [(name, .bool true)] else []

/-- The members of a name, the keyspace only if there is one. -/
def TableName.members (t : TableName) : List (String × Json) :=
  textMember "keyspace" t.keyspace ++ [("name", .text t.name)]

mutual

/-- The document of a node. There is none if it holds a number whose text is no number. -/
def Node.toJson? : Node → Option Json
  | .null => some .null
  | .bool b => some (.bool b)
  | .text s => some (.text s)
  | .number n =>
    if n = "" then some (.number "0")
    else if Json.isNumber n.toList then some (.number n)
    else none
  | .int n => some (.int n)
  | .long n => some (.int n)
  | .double x => some (.number (x.render .document))
  | .bytes bs => some (.text (String.ofList (Text.base64 bs)))
  | .list items => (Node.itemsToJson? items).map .array
  | .object members => (Node.membersToJson? members).map fun ms => .object (sortMembers ms)
  | .expr e => e.toJson?
  | .exprs es => (Expr.listToJson? es).map .array
  | .term t => t.toJson?

/-- The documents of the items of a list. -/
def Node.itemsToJson? : List Node → Option (List Json)
  | [] => some []
  | n :: ns => do return (← n.toJson?) :: (← Node.itemsToJson? ns)

def Node.membersToJson? : List (String × Node) → Option (List (String × Json))
  | [] => some []
  | (name, n) :: ms => do return (name, ← n.toJson?) :: (← Node.membersToJson? ms)

/-- The document of an expression, null if it is missing. -/
def Expr.toJson? : Expr → Option Json
  | .missing => some .null
  | .of t => t.toJson?

def Expr.listToJson? : List Expr → Option (List Json)
  | [] => some []
  | e :: es => do return (← e.toJson?) :: (← Expr.listToJson? es)

/-- The document of a term, without the members that are absent. -/
def Term.toJson? : Term → Option Json
  | ⟨kind, operator, left, right, operand, table, column, value, name, args, items, distinct,
      query⟩ => do
    let leftJson ← left.toJson?
    let rightJson ← right.toJson?
    let operandJson ← operand.toJson?
    let valueJson ← value.toJson?
    let argsJson ← Expr.listToJson? args
    let itemsJson ← Expr.listToJson? items
    let queryJson ← Select.optionToJson? query
    return .object (
      [("type", .text kind.name)] ++ textMember "operator" operator
      ++ (if left.isPresent then [("left", leftJson)] else [])
      ++ (if right.isPresent then [("right", rightJson)] else [])
      ++ (if operand.isPresent then [("operand", operandJson)] else [])
      ++ textMember "table" table ++ textMember "column" column
      ++ (match value with | .null => [] | _ => [("value", valueJson)])
      ++ textMember "name" name
      ++ (if args.isEmpty then [] else [("args", .array argsJson)])
      ++ (if items.isEmpty then [] else [("items", .array itemsJson)])
      ++ flagMember "distinct" distinct
      ++ (if query.isSome then [("select", queryJson)] else []))

def Select.optionToJson? : Option Select → Option Json
  | none => some .null
  | some s => s.toJson?

/-- The document of a query, without the members that are absent. -/
def Select.toJson? : Select → Option Json
  | ⟨distinct, columns, sources, filter, groupBy, having, orderBy, limit, offset,
      setOperation⟩ => do
    let columnsJson ← SelectColumn.listToJson? columns
    let sourcesJson ← TableRef.optionToJson? sources
    let filterJson ← filter.toJson?
    let groupJson ← Expr.listToJson? groupBy
    let havingJson ← having.toJson?
    let orderJson ← OrderItem.listToJson? orderBy
    let limitJson ← limit.toJson?
    let offsetJson ← offset.toJson?
    return .object (
      flagMember "distinct" distinct
      ++ (if columns.isEmpty then [] else [("columns", .array columnsJson)])
      ++ [("from", sourcesJson)]
      ++ (if filter.isPresent then [("where", filterJson)] else [])
      ++ (if groupBy.isEmpty then [] else [("group_by", .array groupJson)])
      ++ (if having.isPresent then [("having", havingJson)] else [])
      ++ (if orderBy.isEmpty then [] else [("order_by", .array orderJson)])
      ++ (match limit with | .null => [] | _ => [("limit", limitJson)])
      ++ (match offset with | .null => [] | _ => [("offset", offsetJson)])
      ++ textMember "set_op" setOperation)

def SelectColumn.listToJson? : List SelectColumn → Option (List Json)
  | [] => some []
  | ⟨e, label⟩ :: cs => do
    let c := Json.object ([("expr", ← e.toJson?)] ++ textMember "alias" label)
    return c :: (← SelectColumn.listToJson? cs)

def OrderItem.listToJson? : List OrderItem → Option (List Json)
  | [] => some []
  | ⟨e, desc⟩ :: os => do
    let o := Json.object ([("expr", ← e.toJson?)] ++ flagMember "desc" desc)
    return o :: (← OrderItem.listToJson? os)

/-- The documents of sources, null if none were named. -/
def TableRef.optionToJson? : Option (List TableRef) → Option Json
  | none => some .null
  | some rs => (TableRef.listToJson? rs).map .array

def TableRef.listToJson? : List TableRef → Option (List Json)
  | [] => some []
  | ⟨table, label, join, on, subquery⟩ :: rs => do
    let onJson ← on.toJson?
    let subqueryJson ← Select.optionToJson? subquery
    let r := Json.object (
      table.members ++ textMember "alias" label ++ textMember "join" join
      ++ (if on.isPresent then [("on", onJson)] else [])
      ++ (if subquery.isSome then [("subquery", subqueryJson)] else []))
    return r :: (← TableRef.listToJson? rs)

end

namespace Node

/-! ### Parts of a node -/

/-- The value of the last member of the given name. -/
def lookup? (name : String) : List (String × Node) → Option Node
  | [] => none
  | (key, value) :: rest =>
    match lookup? name rest with
    | some found => some found
    | none => if key = name then some value else none

/-- The text of the last member of the given name, if it is a text. -/
def textOf? (name : String) (members : List (String × Node)) : Option String :=
  match lookup? name members with
  | some (.text s) => some s
  | _ => none

/-- The type that the members of an object give, in small letters. -/
def objectType (members : List (String × Node)) : String :=
  Text.lower ((textOf? "type" members).getD "")

/-- The type of an object or of an expression, empty for every other node. -/
def type : Node → String
  | .object members => objectType members
  | .expr (.of t) => t.kind.name
  | _ => ""

def isObject : Node → Bool
  | .object _ => true
  | _ => false

def items? : Node → Option (List Node)
  | .list items => some items
  | .exprs es => some (es.map .expr)
  | _ => none

def isNull : Node → Bool
  | .null => true
  | _ => false

/-- The name by which messages call the type of a node. -/
def typeName : Node → String
  | .null => "<nil>"
  | .bool _ => "bool"
  | .text _ => "string"
  | .number _ => "json.Number"
  | .int _ => "int"
  | .long _ => "int64"
  | .double _ => "float64"
  | .bytes _ => "[]uint8"
  | .list _ => "[]interface \x7b\x7d"
  | .object _ => "map[string]interface \x7b\x7d"
  | .expr _ => "*ast.Expr"
  | .exprs _ => "[]*ast.Expr"
  | .term _ => "ast.Expr"

/-! ### Texts and integers -/

/-- A node as the text of a scalar: texts and numbers as they are, other values as documents. -/
def scalarText (n : Node) : String :=
  match n with
  | .text s => s
  | .number s => s
  | .null => ""
  | _ => (n.toJson?.map Json.write).getD ""

def numberText (n : Node) : String :=
  match n with
  | .double x => x.render .plain
  | .int k => toString k
  | .long k => toString k
  | _ => n.scalarText

/-- The integer that the text of a number gives, rounding as floating-point numbers do if the text
is not that of an integer. -/
def integerOfLiteral? (literal : String) : Option Int :=
  match Integer64.read? literal with
  | some n => some n
  | none => (Binary64.read? literal).bind Binary64.toInt64?

def integerOfText? (s : String) : Option Int :=
  Integer64.read? (Text.trim s)

mutual

def integer? : Node → Option Int
  | .number literal => integerOfLiteral? literal
  | .double x => x.toInt64?
  | .int n => some n
  | .long n => some n
  | .text s => integerOfText? s
  | .expr (.of t) => if t.kind = .number then integerOfText? t.value.numberText else none
  | .object members =>
    if objectType members = "number" || objectType members = "" then
      (integerOfMember? "value" members).join
    else
      none
  | _ => none

/-- The integer that the last member of the given name gives, if there is such a member. -/
def integerOfMember? (name : String) : List (String × Node) → Option (Option Int)
  | [] => none
  | (key, n) :: rest =>
    match integerOfMember? name rest with
    | some found => some found
    | none => if key = name then some n.integer? else none

end

/-! ### Names -/

mutual

/-- The identifier that a node gives, directly or inside wrappers. -/
def nameText : Node → String
  | .text s => s
  | .object members =>
    match nameOfMember? "expr" members with
    | some s => s
    | none =>
      match nameOfMember? "value" members with
      | some s => s
      | none => (nameOfMember? "name" members).getD ""
  | _ => ""

/-- The identifier that the last member of the given name gives, if there is such a member. -/
def nameOfMember? (name : String) : List (String × Node) → Option String
  | [] => none
  | (key, n) :: rest =>
    match nameOfMember? name rest with
    | some found => some found
    | none => if key = name then some n.nameText else none

end

/-- The identifier that a node gives, if there is a node. -/
def nameOf (name : String) (members : List (String × Node)) : String :=
  (nameOfMember? name members).getD ""

mutual

/-- The name of a function that a node gives: an identifier, or identifiers joined by dots. -/
def functionName : Node → String
  | .list items => String.intercalate "." (items.map nameText |>.filter (· ≠ ""))
  | .object members =>
    match functionNameOfMember? members with
    | some s => s
    | none => (Node.object members).nameText
  | .text s => s
  | _ => ""

/-- The name of a function that the last member called `name` gives, if there is one. -/
def functionNameOfMember? : List (String × Node) → Option String
  | [] => none
  | (key, n) :: rest =>
    match functionNameOfMember? rest with
    | some found => some found
    | none => if key = "name" then some n.functionName else none

end

/-! ### Display -/

/-- An expression behind a reference: its place in memory is not shown. -/
def displayReference : Expr → String
  | .missing => "<nil>"
  | .of _ => "0xc000000000"

mutual

def display : Node → String
  | .null => "<nil>"
  | .bool b => if b then "true" else "false"
  | .text s => s
  | .number s => s
  | .int n => toString n
  | .long n => toString n
  | .double x => x.render .display
  | .bytes bs => "[" ++ String.intercalate " " (bs.map fun b => toString b.toNat) ++ "]"
  | .list items => "[" ++ String.intercalate " " (displayItems items) ++ "]"
  | .object members =>
    "map[" ++ String.intercalate " "
      ((sortMembers (displayMembers members)).map fun (name, s) => name ++ ":" ++ s) ++ "]"
  | .expr e => displayReference e
  | .exprs es => "[" ++ String.intercalate " " (es.map displayReference) ++ "]"
  | .term _ => ""

def displayItems : List Node → List String
  | [] => []
  | n :: ns => n.display :: displayItems ns

def displayMembers : List (String × Node) → List (String × String)
  | [] => []
  | (name, n) :: ms => (name, n.display) :: displayMembers ms

end

end Node

end CqlGateway

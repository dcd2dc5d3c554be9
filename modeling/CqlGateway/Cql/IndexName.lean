import CqlGateway.Cql.Identifier
import CqlGateway.Statement.Node
import CqlGateway.Statement.Rejection

/-!
# The name of an index to drop

Parsers give the name of an index in many shapes. The shapes are tried in a fixed order, and the
first that fits gives the name. The last resort looks for a name anywhere in the document.
-/

namespace CqlGateway

inductive NameShape where
  | direct
  | nestedName
  | nestedColumn
  | nestedValue
  | tableColumn
  | dotted
  | serialized
  deriving DecidableEq, Repr

namespace NameShape

/-- The shapes in the order in which they are tried. -/
def all : List NameShape :=
  [.direct, .nestedName, .nestedColumn, .nestedValue, .tableColumn, .dotted, .serialized]

def name : NameShape → String
  | .direct => "direct"
  | .nestedName => "nested-name"
  | .nestedColumn => "nested-column"
  | .nestedValue => "nested-value"
  | .tableColumn => "table.column"
  | .dotted => "dotted-string"
  | .serialized => "serialized"

/-- A name without its quotes, if it can be that of an index. -/
def identifier? (s : String) : Option String :=
  let name := Cql.unquote s
  if name = "" || name.toList.any (fun c => c = '.' || c = '\n') then none else some name

def direct? : Node → Option TableName
  | .text s => (identifier? s).map fun name => { name := name }
  | _ => none

/-- The text of a member as the name. -/
def nested? (key : String) : Node → Option TableName
  | .object members => do
    let s ← Node.textOf? key members
    let name ← identifier? s
    return { name := name }
  | _ => none

/-- The text of the member `column`, unless there is a member `table`. -/
def nestedColumn? : Node → Option TableName
  | .object members =>
    if (Node.lookup? "table" members).isSome then none else nested? "column" (.object members)
  | _ => none

/-- The member `column`, directly or inside wrappers, with the member `table` as the keyspace. -/
def tableColumn? : Node → Option TableName
  | .object members => do
    let column ← Node.lookup? "column" members
    let name ← identifier? column.nameText
    return { keyspace := Cql.unquote ((Node.textOf? "table" members).getD ""), name := name }
  | _ => none

/-- The characters before and after the last dot. -/
def splitLastDot? (cs : List Char) : Option (List Char × List Char) :=
  if cs.contains '.' then
    some ((cs.reverse.dropWhile (· ≠ '.')).tail.reverse,
      (cs.reverse.takeWhile (· ≠ '.')).reverse)
  else
    none

/-- A text with the keyspace before its last dot and the name after it. -/
def dotted? : Node → Option TableName
  | .text s => do
    let (before, after) ← splitLastDot? s.toList
    let name ← identifier? (String.ofList after)
    return { keyspace := Cql.unquote (String.ofList before), name := name }
  | _ => none

/-- Whether a member may hold the name. What counts is the part of its key behind the last quotation
mark, which is all of it as a rule. -/
def isNameKey (key : String) : Bool :=
  let word := String.ofList (key.toList.reverse.takeWhile (· ≠ '"')).reverse
  word = "name" || word = "value" || word = "column"

/-- The plain identifier that a document consists of. -/
def plainText? : Json → Option String
  | .text s => if Cql.isPlain s.toList then some s else none
  | _ => none

mutual

/-- The first member of a document, in the order written, that may hold the name and holds a plain
identifier. -/
def search? : Json → Option String
  | .array items => searchItems? items
  | .object members => searchMembers? members
  | _ => none

/-- The first such member inside the items of an array. -/
def searchItems? : List Json → Option String
  | [] => none
  | v :: vs =>
    match search? v with
    | some s => some s
    | none => searchItems? vs

/-- The first such member among the members of an object or inside them. -/
def searchMembers? : List (String × Json) → Option String
  | [] => none
  | (key, v) :: ms =>
    match if isNameKey key then plainText? v else none with
    | some s => some s
    | none =>
      match search? v with
      | some s => some s
      | none => searchMembers? ms

end

/-- The first name in the document of a node. -/
def serialized? (n : Node) : Option TableName := do
  let name ← search? (← n.toJson?)
  return { name := name }

def extract? : NameShape → Node → Option TableName
  | .direct => direct?
  | .nestedName => nested? "name"
  | .nestedColumn => nestedColumn?
  | .nestedValue => nested? "value"
  | .tableColumn => tableColumn?
  | .dotted => dotted?
  | .serialized => serialized?

def firstOf? (n : Node) : List NameShape → Option (TableName × NameShape)
  | [] => none
  | shape :: shapes =>
    match shape.extract? n with
    | some name => some (name, shape)
    | none => firstOf? n shapes

end NameShape

def resolveIndexName (n : Node) : Except Rejection (TableName × NameShape) :=
  match if n.isNull then none else NameShape.firstOf? n NameShape.all with
  | some found => .ok found
  | none => .error .unresolvedIndexName

end CqlGateway

import CqlGateway.Number.Binary64

/-!
# Expressions, queries and raw nodes

Where the shape of a parsed statement is not fixed, it is kept as a raw node and read only when
it is needed: the values of an `INSERT`, a `LIMIT`, the name of an index to drop. A raw node is a
JSON value, or a value that a caller put there directly.

An expression is a term of some kind. A term carries every member that came with it; which of
them count depends on its kind, and the others are kept without effect. An expression that is
absent is `missing`.
-/

namespace CqlGateway

/-- A table, view or index name, with a keyspace or without. -/
structure TableName where
  keyspace : String := ""
  name : String := ""
  deriving DecidableEq, Repr, Inhabited

def TableName.dotted (t : TableName) : String :=
  if t.keyspace = "" then t.name else t.keyspace ++ "." ++ t.name

inductive TermKind where
  | binary
  | unary
  | column
  | text
  | number
  | bool
  | null
  | function
  | aggregate
  | list
  | star
  | param
  | subquery
  /-- A kind that no statement uses. -/
  | other (name : String)
  deriving DecidableEq, Repr, Inhabited

namespace TermKind

def name : TermKind → String
  | .binary => "binary_expr"
  | .unary => "unary_expr"
  | .column => "column_ref"
  | .text => "string"
  | .number => "number"
  | .bool => "bool"
  | .null => "null"
  | .function => "function"
  | .aggregate => "aggr_func"
  | .list => "expr_list"
  | .star => "star"
  | .param => "param"
  | .subquery => "subquery"
  | .other name => name

def known : List TermKind :=
  [.binary, .unary, .column, .text, .number, .bool, .null, .function, .aggregate, .list, .star,
   .param, .subquery]

def ofName (name : String) : TermKind :=
  (known.find? fun k => k.name = name).getD (.other name)

end TermKind

mutual

/-- A part of a statement whose shape is not fixed. -/
inductive Node where
  | null
  | bool (value : Bool)
  | text (value : String)
  /-- A number, by the text that spells it. -/
  | number (literal : String)
  | int (value : Int)
  /-- An integer of 64 bits. -/
  | long (value : Int)
  | double (value : Binary64)
  | bytes (value : List UInt8)
  | list (items : List Node)
  /-- The members in order; of several members of one name the last one counts. -/
  | object (members : List (String × Node))
  /-- An expression, or the place of one. -/
  | expr (value : Expr)
  | exprs (values : List Expr)
  /-- A term that is not behind a reference. -/
  | term (value : Term)

/-- An expression, or the place of one. -/
inductive Expr where
  | missing
  | of (term : Term)

structure Term where
  kind : TermKind
  operator : String
  left : Expr
  right : Expr
  operand : Expr
  table : String
  column : String
  value : Node
  name : String
  args : List Expr
  items : List Expr
  distinct : Bool
  query : Option Select

structure SelectColumn where
  expr : Expr
  label : String

structure OrderItem where
  expr : Expr
  desc : Bool

structure TableRef where
  table : TableName
  label : String
  /-- The kind of join, empty for a source that is only listed. -/
  join : String
  on : Expr
  subquery : Option Select

structure Select where
  distinct : Bool
  columns : List SelectColumn
  /-- The sources, if any were named. -/
  sources : Option (List TableRef)
  filter : Expr
  groupBy : List Expr
  having : Expr
  orderBy : List OrderItem
  limit : Node
  offset : Node
  setOperation : String

end

instance : Inhabited Node := ⟨.null⟩
instance : Inhabited Expr := ⟨.missing⟩

/-- A term of the given kind without members. -/
def Term.blank (kind : TermKind) : Term where
  kind := kind
  operator := ""
  left := .missing
  right := .missing
  operand := .missing
  table := ""
  column := ""
  value := .null
  name := ""
  args := []
  items := []
  distinct := false
  query := none

def TableRef.blank : TableRef where
  table := {}
  label := ""
  join := ""
  on := .missing
  subquery := none

def Select.blank : Select where
  distinct := false
  columns := []
  sources := none
  filter := .missing
  groupBy := []
  having := .missing
  orderBy := []
  limit := .null
  offset := .null
  setOperation := ""

namespace Expr

/-! ### Building expressions -/

def column (name : String) : Expr :=
  .of { Term.blank .column with column := name }

def text (s : String) : Expr :=
  .of { Term.blank .text with value := .text s }

/-- A number literal, by the text that spells it. -/
def number (literal : String) : Expr :=
  .of { Term.blank .number with value := .text literal }

def int (n : Int) : Expr :=
  number (toString n)

def double (x : Binary64) : Expr :=
  number (x.render .plain)

def bool (b : Bool) : Expr :=
  .of { Term.blank .bool with value := .bool b }

def null : Expr :=
  .of (Term.blank .null)

def star : Expr :=
  .of (Term.blank .star)

def function (name : String) (args : List Expr) : Expr :=
  .of { Term.blank .function with name := name, args := args }

def aggregate (name : String) (args : List Expr) : Expr :=
  .of { Term.blank .aggregate with name := name, args := args }

def list (items : List Expr) : Expr :=
  .of { Term.blank .list with items := items }

def binary (operator : String) (left right : Expr) : Expr :=
  .of { Term.blank .binary with operator := operator, left := left, right := right }

def unary (operator : String) (operand : Expr) : Expr :=
  .of { Term.blank .unary with operator := operator, operand := operand }

def eq (left right : Expr) : Expr :=
  binary "=" left right

def or (left right : Expr) : Expr :=
  binary "OR" left right

/-- Conjunction of an expression with further ones, from the left. As long as the expression is
missing, the next one takes its place. -/
def andFrom (first : Expr) : List Expr → Expr
  | [] => first
  | e :: es =>
    match first with
    | .missing => andFrom e es
    | .of _ => andFrom (binary "AND" first e) es

/-- Conjunction of all expressions of a list. -/
def and (es : List Expr) : Expr :=
  andFrom .missing es

/-! ### Looking at expressions -/

def kind? : Expr → Option TermKind
  | .missing => none
  | .of t => some t.kind

def isPresent : Expr → Bool
  | .missing => false
  | .of _ => true

def items : Expr → List Expr
  | .missing => []
  | .of t => t.items

def isLiteral (e : Expr) : Bool :=
  match e.kind? with
  | some .text | some .number | some .bool | some .null | some .param => true
  | _ => false

mutual

/-- The terms of an expression, each before the terms below it, from left to right. -/
def terms : Expr → List Term
  | .missing => []
  | .of ⟨kind, operator, left, right, operand, table, column, value, name, args, items, distinct,
      query⟩ =>
    ⟨kind, operator, left, right, operand, table, column, value, name, args, items, distinct,
      query⟩ :: (left.terms ++ right.terms ++ operand.terms ++ termsOf args ++ termsOf items)

def termsOf : List Expr → List Term
  | [] => []
  | e :: es => e.terms ++ termsOf es

end

end Expr

end CqlGateway

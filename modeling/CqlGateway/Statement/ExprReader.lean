import CqlGateway.Statement.Slot

/-!
# Reading expressions

Parsers disagree on the shapes of expressions. Each shape is known by the `type` of an object, in
any case of letters; scalars and lists are literals and lists.

A subquery inside an expression is optional: if its document is not that of a query, the
expression is a subquery without a query. Documents are read in their settled form.
-/

namespace CqlGateway

/-! ### The shapes of terms -/

/-- How a truth value is given. -/
def Node.truth : Option Node → Bool
  | some (.bool b) => b
  | some (.text s) => Text.equalFold s "true"
  | _ => false

/-- The parts of an object that are expressions, each read only when the type of the object asks
for it. -/
structure Parts where
  /-- The last member of a name, as an expression. -/
  expr? : String → Option (Except Rejection Expr)
  /-- The last member of a name, as the items of a list. -/
  items? : String → Option (Except Rejection (List Expr))
  /-- The arguments of a call, and whether they are to be distinct. -/
  args : Except Rejection (List Expr × Bool)
  query : Option Select

namespace Parts

/-- The expression of a member, `NULL` if there is no such member. -/
def expr (parts : Parts) (name : String) : Except Rejection Expr :=
  (parts.expr? name).getD (.ok .null)

/-- The column that the members of an object name. -/
def column (members : List (String × Node)) : Expr :=
  .of { Term.blank .column with
    table := Node.nameOf "table" members, column := Node.nameOf "column" members }

def call (kind : TermKind) (members : List (String × Node)) (parts : Parts) :
    Except Rejection Expr := do
  let (args, distinct) ← parts.args
  let flagged :=
    match Node.lookup? "distinct" members with
    | some (.bool b) => b
    | _ => false
  let name := ((Node.lookup? "name" members).map Node.functionName).getD ""
  return .of { Term.blank kind with name := name, args := args, distinct := distinct || flagged }

/-- The name or, failing that, the value of a parameter. -/
def paramName (members : List (String × Node)) : String :=
  let name := Node.nameOf "name" members
  if name = "" then ((Node.lookup? "value" members).map Node.scalarText).getD "" else name

def assemble (members : List (String × Node)) (parts : Parts) : Except Rejection Expr :=
  let operator := (Node.textOf? "operator" members).getD ""
  match Node.objectType members with
  | "binary_expr" => do
    return .binary operator (← parts.expr "left") (← parts.expr "right")
  | "unary_expr" => do
    let operand ← (parts.expr? "operand").getD (parts.expr "expr")
    return .unary operator operand
  | "column_ref" =>
    if Node.nameOf "column" members = "*" then .ok .star else .ok (column members)
  | "string" | "single_quote_string" | "double_quote_string" | "natural_string" | "var_string" =>
    .ok (.text (((Node.lookup? "value" members).map Node.scalarText).getD ""))
  | "number" => .ok (.number (((Node.lookup? "value" members).map Node.numberText).getD ""))
  | "bool" | "boolean" => .ok (.bool (Node.truth (Node.lookup? "value" members)))
  | "null" => .ok .null
  | "star" => .ok .star
  | "param" => .ok (.of { Term.blank .param with name := paramName members })
  | "function" => call .function members parts
  | "aggr_func" => call .aggregate members parts
  | "expr_list" => do
    return .list (← (parts.items? "items").getD ((parts.items? "value").getD (.ok [])))
  | "select" | "subquery" => .ok (.of { Term.blank .subquery with query := parts.query })
  | "" =>
    if (Node.lookup? "column" members).isSome then .ok (column members)
    else (parts.expr? "value").getD (.error (.unknownNodeType ""))
  | type => .error (.unknownNodeType type)

end Parts

/-- The arguments that an expression stands for: the items of a list, or the expression alone. -/
def Expr.asArgs (e : Expr) : List Expr :=
  if e.kind? = some .list then e.items else [e]

/-- Whether the members of an argument object ask for distinct values. -/
def Node.asksDistinct (members : List (String × Node)) : Bool :=
  match Node.textOf? "distinct" members with
  | some s => Text.equalFold s "distinct"
  | none => false

/-- An expression in the place of a literal list item: a missing one is `NULL`. -/
def Expr.orNull : Expr → Expr
  | .missing => .null
  | e => e

/-- The arguments that a node stands for, and whether they are to be distinct, given what it
stands for as an expression, as a list, and as a wrapper around an expression. -/
def Expr.argsOf (n : Node) (whole : Except Rejection Expr) (items : Except Rejection (List Expr))
    (wrapped? : Option (Except Rejection Expr)) : Except Rejection (List Expr × Bool) :=
  match n with
  | .null => .ok ([], false)
  | .list _ | .exprs _ => do return (← items, false)
  | .object members =>
    match wrapped? with
    | some inner => do return ([← inner], Node.asksDistinct members)
    | none => do return ((← whole).asArgs, Node.asksDistinct members)
  | _ => do return ([← whole], false)

/-- Fill the place of an expression with what a node stands for. -/
def Expr.slot (n : Node) (e : Except Rejection Expr) : Reading Expr :=
  if n.isNull then pure .missing else Reading.ofExcept .missing e

/-- Fill the place of a query with what a node stands for. -/
def Select.slot (n : Node) (s : Reading Select) : Reading (Option Select) :=
  if n.isNull then pure none else some <$> s

/-! ### Reading nodes -/

mutual

def Expr.read : Node → Except Rejection Expr
  | .null => .ok .null
  | .bool b => .ok (.bool b)
  | .text s => .ok (.text s)
  | .number literal => .ok (.number literal)
  | .int n => .ok (.int n)
  | .long n => .ok (.int n)
  | .double x => .ok (.double x)
  | .bytes bs => .error (.nodeOfType (Node.bytes bs).typeName)
  | .list ns => (Expr.readAll ns).map .list
  | .exprs es => .ok (.list es)
  | .expr e => .ok e.orNull
  | .term t => .ok (.of t)
  | .object members =>
    Parts.assemble members {
      expr? := fun name => Expr.readMember? name members
      items? := fun name => Expr.readListMember? name members
      args := Expr.readArgs members
      query := Select.readMember? members }
termination_by structural n => n

def Expr.readAll : List Node → Except Rejection (List Expr)
  | [] => .ok []
  | n :: ns => do return (← Expr.read n) :: (← Expr.readAll ns)
termination_by structural ns => ns

/-- The expression of the last member of the given name. -/
def Expr.readMember? (name : String) : List (String × Node) → Option (Except Rejection Expr)
  | [] => none
  | (key, n) :: rest =>
    match Expr.readMember? name rest with
    | some found => some found
    | none => if key = name then some (Expr.read n) else none
termination_by structural members => members

/-- The expressions of a list; there are none in other nodes. -/
def Expr.readList : Node → Except Rejection (List Expr)
  | .list ns => Expr.readAll ns
  | .exprs es => .ok (es.map Expr.orNull)
  | _ => .ok []
termination_by structural n => n

/-- The expressions of the last member of the given name. -/
def Expr.readListMember? (name : String) :
    List (String × Node) → Option (Except Rejection (List Expr))
  | [] => none
  | (key, n) :: rest =>
    match Expr.readListMember? name rest with
    | some found => some found
    | none => if key = name then some (Expr.readList n) else none
termination_by structural members => members

/-- The expression inside an object without a type that only wraps it. -/
def Expr.readWrapped? : Node → Option (Except Rejection Expr)
  | .object members =>
    if Node.objectType members = "" then Expr.readMember? "expr" members else none
  | _ => none
termination_by structural n => n

/-- The arguments that the last member called `args` gives, and whether they are to be
distinct. -/
def Expr.readArgs : List (String × Node) → Except Rejection (List Expr × Bool)
  | [] => .ok ([], false)
  | (key, n) :: rest =>
    if key = "args" && (Node.lookup? "args" rest).isNone then
      Expr.argsOf n (Expr.read n) (Expr.readList n) (Expr.readWrapped? n)
    else
      Expr.readArgs rest
termination_by structural members => members

/-- The query that the last member called `select` gives, if it is that of a query. -/
def Select.readMember? : List (String × Node) → Option Select
  | [] => none
  | (key, n) :: rest =>
    if key = "select" && (Node.lookup? "select" rest).isNone then
      (Select.read Select.blank n).result.toOption
    else
      Select.readMember? rest
termination_by structural members => members

def Select.read (old : Select) : Node → Reading Select
  | .null => pure old
  | .object members => Select.fillAll old members
  | _ => Reading.mismatch old
termination_by structural n => n

def Select.fillAll (s : Select) : List (String × Node) → Reading Select
  | [] => pure s
  | (name, n) :: rest => do
    let next ←
      match Text.fold name with
      | "distinct" => do pure { s with distinct := ← Reading.flag s.distinct n }
      | "columns" => do pure { s with columns := ← SelectColumn.readList n }
      | "from" => do pure { s with sources := ← TableRef.readList n }
      | "where" => do pure { s with filter := ← Expr.slot n (Expr.read n) }
      | "group_by" => do pure { s with groupBy := ← Expr.readSlots n }
      | "having" => do pure { s with having := ← Expr.slot n (Expr.read n) }
      | "order_by" => do pure { s with orderBy := ← OrderItem.readList n }
      | "limit" => do pure { s with limit := ← Reading.raw n }
      | "offset" => do pure { s with offset := ← Reading.raw n }
      | "set_op" => do pure { s with setOperation := ← Reading.text s.setOperation n }
      | _ => pure s
    Select.fillAll next rest
termination_by structural members => members

def Expr.readSlots : Node → Reading (List Expr)
  | .null => pure []
  | .list ns => Expr.readSlotItems ns
  | _ => Reading.mismatch []
termination_by structural n => n

def Expr.readSlotItems : List Node → Reading (List Expr)
  | [] => pure []
  | n :: ns => do return (← Expr.slot n (Expr.read n)) :: (← Expr.readSlotItems ns)
termination_by structural ns => ns

def SelectColumn.readList : Node → Reading (List SelectColumn)
  | .null => pure []
  | .list ns => SelectColumn.readItems ns
  | _ => Reading.mismatch []
termination_by structural n => n

def SelectColumn.readItems : List Node → Reading (List SelectColumn)
  | [] => pure []
  | n :: ns => do
    return (← SelectColumn.read ⟨.missing, ""⟩ n) :: (← SelectColumn.readItems ns)
termination_by structural ns => ns

def SelectColumn.read (old : SelectColumn) : Node → Reading SelectColumn
  | .null => pure old
  | .object members => SelectColumn.fillAll old members
  | _ => Reading.mismatch old
termination_by structural n => n

def SelectColumn.fillAll (c : SelectColumn) : List (String × Node) → Reading SelectColumn
  | [] => pure c
  | (name, n) :: rest => do
    let next ←
      match Text.fold name with
      | "expr" => do pure { c with expr := ← Expr.slot n (Expr.read n) }
      | "alias" => do pure { c with label := ← Reading.text c.label n }
      | _ => pure c
    SelectColumn.fillAll next rest
termination_by structural members => members

def OrderItem.readList : Node → Reading (List OrderItem)
  | .null => pure []
  | .list ns => OrderItem.readItems ns
  | _ => Reading.mismatch []
termination_by structural n => n

def OrderItem.readItems : List Node → Reading (List OrderItem)
  | [] => pure []
  | n :: ns => do
    return (← OrderItem.read ⟨.missing, false⟩ n) :: (← OrderItem.readItems ns)
termination_by structural ns => ns

def OrderItem.read (old : OrderItem) : Node → Reading OrderItem
  | .null => pure old
  | .object members => OrderItem.fillAll old members
  | _ => Reading.mismatch old
termination_by structural n => n

def OrderItem.fillAll (o : OrderItem) : List (String × Node) → Reading OrderItem
  | [] => pure o
  | (name, n) :: rest => do
    let next ←
      match Text.fold name with
      | "expr" => do pure { o with expr := ← Expr.slot n (Expr.read n) }
      | "desc" => do pure { o with desc := ← Reading.flag o.desc n }
      | _ => pure o
    OrderItem.fillAll next rest
termination_by structural members => members

/-- Fill a list of sources, of which it is kept whether it was given. -/
def TableRef.readList : Node → Reading (Option (List TableRef))
  | .null => pure none
  | .list ns => some <$> TableRef.readItems ns
  | _ => Reading.mismatch none
termination_by structural n => n

def TableRef.readItems : List Node → Reading (List TableRef)
  | [] => pure []
  | n :: ns => do
    return (← TableRef.read TableRef.blank n) :: (← TableRef.readItems ns)
termination_by structural ns => ns

def TableRef.read (old : TableRef) : Node → Reading TableRef
  | .null => pure old
  | .object members => TableRef.fillAll old members
  | _ => Reading.mismatch old
termination_by structural n => n

def TableRef.fillAll (r : TableRef) : List (String × Node) → Reading TableRef
  | [] => pure r
  | (name, n) :: rest => do
    let next ←
      match Text.fold name with
      | "alias" => do pure { r with label := ← Reading.text r.label n }
      | "join" => do pure { r with join := ← Reading.text r.join n }
      | "on" => do pure { r with on := ← Expr.slot n (Expr.read n) }
      | "subquery" => do
        let query := Select.read (r.subquery.getD Select.blank) n
        pure { r with subquery := ← Select.slot n query }
      | slot => do pure { r with table := ← r.table.fill slot n }
    TableRef.fillAll next rest
termination_by structural members => members

end

def Expr.ofNode (n : Node) : Except Rejection Expr :=
  Expr.read n.settled

end CqlGateway

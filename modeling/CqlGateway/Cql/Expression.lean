import CqlGateway.Cql.Function
import CqlGateway.Cql.Identifier
import CqlGateway.Cql.Operator
import CqlGateway.Cql.Warning
import CqlGateway.Statement.Node

/-!
# Expressions in CQL

A predicate or value is written by recursion on the expression. A logical operand is put in
parentheses when its operator differs from that of the whole; no other operand is. Between two
bounds is written as two comparisons.
-/

namespace CqlGateway

namespace Expr

def isLogical : Expr → Bool
  | .missing => false
  | .of t => t.kind = .binary && (Text.upper t.operator = "AND" || Text.upper t.operator = "OR")

/-- The operator of an expression, in the form in which it is looked up. -/
def operatorKey : Expr → String
  | .missing => ""
  | .of t => Cql.Operator.normalize t.operator

/-- A parameter: a question mark, or a name after a colon. -/
def paramCql (name : String) : String :=
  if name = "" || name = "?" then "?"
  else ":" ++ String.ofList (name.toList.dropWhile fun c => c = ':' || c = '$' || c = '@')

def columnCql (column : String) : Draft String :=
  if column = "*" then pure "*"
  else if column = "" then Draft.reject .unnamedColumnReference
  else pure (Cql.quoteIdentifier column)

/-- The text of a text literal, empty if the value is no text. -/
def literalText : Node → String
  | .text s => s
  | _ => ""

/-- A truth value, false if the value is none. -/
def boolCql : Node → String
  | .bool true => "true"
  | _ => "false"

/-- Texts between two brackets, divided by commas. -/
def enclosed (left right : String) (items : List String) : String :=
  left ++ String.intercalate ", " items ++ right

def callCql (kind : TermKind) (name : String) (distinct : Bool) (args : List Expr)
    (argsDraft : Draft (List String)) : Draft String := do
  let f := Cql.Function.ofName name
  if f.kind = .unmapped then
    Draft.warn (if kind = .aggregate then .unmappedAggregate (Text.upper name)
      else .unmappedFunction (Text.upper name))
  if f.nullary then
    return f.name ++ "()"
  Draft.warnIf distinct (.distinctArgument (Text.upper name))
  if args.isEmpty && f.kind = .aggregate && f.name = "COUNT" then
    return "COUNT(*)"
  return f.name ++ enclosed "(" ")" (← argsDraft)

def operandCql (operand : Expr) (parent : String) (text : String) : String :=
  if operand.isLogical && operand.operatorKey ≠ parent then "(" ++ text ++ ")" else text

/-- A binary operator, given its operands and the bounds that the right one gives. -/
def binaryCql (operator : String) (left right : Expr) (leftDraft rightDraft : Draft String)
    (bounds : Option (Draft (String × String))) : Draft String := do
  let op := Cql.Operator.normalize operator
  if !left.isPresent || !right.isPresent then
    Draft.reject (.missingOperand op)
  else if op = "BETWEEN" then
    match bounds with
    | none => Draft.reject .wrongBounds
    | some boundsDraft => do
      let subject ← leftDraft
      let (lo, hi) ← boundsDraft
      return subject ++ " >= " ++ lo ++ " AND " ++ subject ++ " <= " ++ hi
  else do
    let mapped ← Draft.ofExcept (Cql.Operator.ofText op)
    match mapped.caution with
    | some text => Draft.warn (.approximated text)
    | none => pure ()
    Draft.warnIf (op = "OR") .orPredicate
    let l := operandCql left op (← leftDraft)
    let r := operandCql right op (← rightDraft)
    let r := if op = "IN" && right.kind? ≠ some .list then "(" ++ r ++ ")" else r
    return l ++ " " ++ mapped.cql ++ " " ++ r

def startsWithSign (s : String) : Bool :=
  s.toList.head? = some '-' || s.toList.head? = some '+'

/-- A sign before an operand; two signs in a row would start a comment. -/
def signCql (sign operand : String) : String :=
  if startsWithSign operand then sign ++ "(" ++ operand ++ ")" else sign ++ operand

def unaryCql (operator : String) (operandDraft : Draft String) : Draft String :=
  match Cql.Operator.normalize operator with
  | "-" => do return signCql "-" (← operandDraft)
  | "+" => do return signCql "+" (← operandDraft)
  | "NOT" | "!" => Draft.reject .negatedPredicate
  | "EXISTS" => Draft.reject (.existsPredicate "EXISTS")
  | "NOT EXISTS" => Draft.reject (.existsPredicate "NOT EXISTS")
  | _ => Draft.reject (.unknownUnaryOperator operator)

mutual

def cql : Expr → Draft String
  | .missing => Draft.reject .missingExpression
  | .of ⟨kind, operator, left, right, operand, _, column, value, name, args, items, distinct,
      _⟩ =>
    match kind with
    | .column => columnCql column
    | .star => pure "*"
    | .text => pure (Cql.quoteText (literalText value))
    | .number => pure value.display
    | .bool => pure (boolCql value)
    | .null => pure "NULL"
    | .param => pure (paramCql name)
    | .function => callCql .function name distinct args (cqlAll args)
    | .aggregate => callCql .aggregate name distinct args (cqlAll args)
    | .list => enclosed "(" ")" <$> cqlAll items
    | .binary => binaryCql operator left right left.cql right.cql (boundsCql right)
    | .unary => unaryCql operator operand.cql
    | .subquery => Draft.reject .subqueryExpression
    | .other type => Draft.reject (.unknownTermKind type)

def cqlAll : List Expr → Draft (List String)
  | [] => pure []
  | e :: es => do return (← e.cql) :: (← cqlAll es)

def boundsCql : Expr → Option (Draft (String × String))
  | .missing => none
  | .of ⟨kind, _, _, _, _, _, _, _, _, _, items, _, _⟩ =>
    if kind = .list then pairCql items else none

/-- The items of a list of two. -/
def pairCql : List Expr → Option (Draft (String × String))
  | [lo, hi] => some do return (← lo.cql, ← hi.cql)
  | _ => none

end

mutual

/-- A value in CQL: lists are written as list literals. -/
def valueCql : Expr → Draft String
  | .missing => Draft.reject .missingExpression
  | .of ⟨kind, operator, left, right, operand, table, column, value, name, args, items, distinct,
      query⟩ =>
    if kind = .list then enclosed "[" "]" <$> valueCqlAll items
    else cql (.of ⟨kind, operator, left, right, operand, table, column, value, name, args, items,
      distinct, query⟩)

def valueCqlAll : List Expr → Draft (List String)
  | [] => pure []
  | e :: es => do return (← e.valueCql) :: (← valueCqlAll es)

end

end Expr

end CqlGateway

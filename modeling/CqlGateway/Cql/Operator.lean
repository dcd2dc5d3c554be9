import CqlGateway.Statement.Rejection
import CqlGateway.Text.Blank
import CqlGateway.Text.Case

/-!
# Operators

An operator is looked up in capital letters with single blanks between its words. Some operators
of other dialects have no counterpart in CQL, and one of them is only approximated.
-/

namespace CqlGateway.Cql

structure Operator where
  cql : String
  /-- The warning that goes with an approximation. -/
  caution : Option String := none
  deriving DecidableEq, Repr

namespace Operator

/-- An operator in the form in which it is looked up. -/
def normalize (op : String) : String :=
  String.intercalate " " (Text.words (Text.upper op))

def likeCaution : String :=
  "LIKE has no CQL equivalent; approximated with CONTAINS, which matches collection elements rather than string patterns"

def table : List (String × Operator) :=
  [("=", ⟨"=", none⟩), ("==", ⟨"=", none⟩), ("!=", ⟨"!=", none⟩), ("<>", ⟨"!=", none⟩),
   ("<", ⟨"<", none⟩), (">", ⟨">", none⟩), ("<=", ⟨"<=", none⟩), (">=", ⟨">=", none⟩),
   ("IN", ⟨"IN", none⟩), ("CONTAINS", ⟨"CONTAINS", none⟩),
   ("CONTAINS KEY", ⟨"CONTAINS KEY", none⟩), ("IS", ⟨"IS", none⟩), ("IS NOT", ⟨"IS NOT", none⟩),
   ("AND", ⟨"AND", none⟩), ("OR", ⟨"OR", none⟩), ("+", ⟨"+", none⟩), ("-", ⟨"-", none⟩),
   ("*", ⟨"*", none⟩), ("/", ⟨"/", none⟩), ("%", ⟨"%", none⟩),
   ("LIKE", ⟨"CONTAINS", some likeCaution⟩)]

/-- The operators that are known to have no counterpart. -/
def unmapped : List String :=
  ["NOT LIKE", "ILIKE", "NOT ILIKE", "REGEXP", "NOT REGEXP", "RLIKE", "SIMILAR TO",
   "NOT SIMILAR TO", "NOT IN", "NOT BETWEEN", "||", "EXISTS", "NOT EXISTS"]

def ofText (op : String) : Except Rejection Operator :=
  match table.lookup (normalize op) with
  | some o => .ok o
  | none =>
    if unmapped.contains (normalize op) then .error (.unmappedOperator (normalize op))
    else .error (.unknownOperator op)

end Operator

end CqlGateway.Cql

import CqlGateway.Statement.Node

/-!
# The limit of a query

A limit is a number, or a pair of a count and an offset whose order depends on the separator: a
comma puts the offset first, the word `offset` puts it last. A pair without values is how a
missing limit is spelled. Only a positive count is of use.
-/

namespace CqlGateway

structure Limit where
  /-- The count, if it is a positive integer. -/
  count? : Option Int
  hasOffset : Bool
  deriving DecidableEq, Repr

namespace Limit

/-- The values of a pair: the items of the `value` of an object without a type. -/
def pairItems? : Node → Option (List Node)
  | .object members =>
    if Node.objectType members = "" then (Node.lookup? "value" members).bind Node.items? else none
  | _ => none

/-- Whether a raw limit carries a value. -/
def isGiven (n : Node) : Bool :=
  match pairItems? n with
  | some items => !items.isEmpty
  | none => !n.isNull

/-- The word between the values of a pair, under either of its spellings. -/
def separator : Node → String
  | .object members =>
    match Node.textOf? "seperator" members with
    | some "" | none =>
      Text.lower (Text.trim ((Node.textOf? "separator" members).getD ""))
    | some s => Text.lower (Text.trim s)
  | _ => ""

def positive? (n : Node) : Option Int :=
  n.integer?.filter (0 < ·)

def ofNode (n : Node) : Limit :=
  match pairItems? n with
  | some [] => ⟨none, false⟩
  | some [item] => ⟨positive? item, false⟩
  | some (first :: rest) =>
    if separator n = "offset" then ⟨positive? first, true⟩
    else ⟨positive? (rest.getLastD first), true⟩
  | none =>
    match n.items? with
    | some [item] => ⟨positive? item, false⟩
    | _ => ⟨positive? n, false⟩

end Limit

end CqlGateway

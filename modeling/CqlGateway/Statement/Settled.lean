import CqlGateway.Statement.Node

/-!
# Documents made ready for reading

Two things about a document do not show in any single member of it, and `settled` writes them
down so that reading can go member by member.

The query of a subquery inside an expression is read in its canonical form.

A place may be given several times. Most places keep the last value, or take over single members,
so reading the members in their order is enough. Lists and queries keep more. A list is filled over
the items that the lists before it left behind, also over those behind the end of a shorter list,
and a query over the query before it; `null` and the empty list leave nothing behind. Therefore each
value of such a place is replaced by one that says all that the place holds by then.
-/

namespace CqlGateway.Node

/-! ### Canonical queries -/

/-- The node of a plain document in canonical form. A node without a document becomes one that
fits no slot. -/
def plain (n : Node) : Node :=
  match n.toJson? with
  | some json => .ofJson json
  | none => .bool false

/-- Whether a type is that of subqueries. -/
def isQueryType (type : String) : Bool :=
  type = "select" || type = "subquery"

mutual

/-- A node in which the queries of all subqueries are in canonical form. -/
def withCanonicalQueries : Node → Node
  | .list items => .list (itemsWithCanonicalQueries items)
  | .object members =>
    .object (membersWithCanonicalQueries (isQueryType (objectType members)) members)
  | n => n

/-- The items of a list, with all queries of subqueries in canonical form. -/
def itemsWithCanonicalQueries : List Node → List Node
  | [] => []
  | n :: ns => n.withCanonicalQueries :: itemsWithCanonicalQueries ns

/-- The members of an object, with all queries of subqueries in canonical form; of a subquery, the
query itself is put into that form. -/
def membersWithCanonicalQueries (query : Bool) : List (String × Node) → List (String × Node)
  | [] => []
  | (name, n) :: ms =>
    (name, if query && name = "select" then n.plain else n.withCanonicalQueries)
      :: membersWithCanonicalQueries query ms

end

/-! ### Places that are given several times -/

/-- What an item amounts to that is given over another one. -/
def merged : Node → Node → Node
  | old, .null => old
  | .object old, .object new => .object (old ++ new)
  | _, new => new

/-- What items amount to that are given over other ones. -/
def mergedItems : List Node → List Node → List Node
  | old, [] => old
  | [], new => new
  | a :: old, b :: new => merged a b :: mergedItems old new

/-- What a place keeps of what it kept before when it is given a value. -/
def kept : Node → Node → Node
  | .list old, .list (n :: ns) => .list (mergedItems old (n :: ns))
  | .object old, .object new => .object (old ++ new)
  | _, new => new

/-- What a place holds when it is given a value after the given ones: no more items than the last
list has. -/
def holding (given : List Node) (n : Node) : Node :=
  match kept (given.foldl kept .null) n, n with
  | .list all, .list ns => .list (all.take ns.length)
  | all, _ => all

/-- A place that is given once holds what it is given. -/
theorem holding_nil (n : Node) : holding [] n = n := by
  cases n <;> simp [holding, kept]

/-- The places that hold lists or queries, by their names in folded form. -/
def lastingPlaces : List String :=
  ["columns", "from", "order_by", "primary_key", "specs", "tables", "include", "set", "definition",
    "select", "subquery", "operations", "indexes", "foreign_keys"]

/-- The places that hold expressions, by their names in folded form. -/
def expressionPlaces : List String :=
  ["where", "having", "on", "expr", "value", "group_by"]

/-- Whether a member fills a place that holds a list or a query. -/
def isLasting (name : String) : Bool :=
  lastingPlaces.contains (Text.fold name)

/-- The members of a record, each of a list or a query saying all that its place holds, given the
members before them. -/
def accumulated (earlier : List (String × Node)) : List (String × Node) → List (String × Node)
  | [] => []
  | (name, n) :: rest =>
    let given := earlier.filter fun (key, _) => Text.fold key = Text.fold name
    (name, if isLasting name then holding (given.map (·.2)) n else n)
      :: accumulated (earlier ++ [(name, n)]) rest

mutual

/-- How deep lists and objects are nested in a node. -/
def depth : Node → Nat
  | .list items => itemsDepth items + 1
  | .object members => membersDepth members + 1
  | _ => 0

/-- The depth of the deepest item. -/
def itemsDepth : List Node → Nat
  | [] => 0
  | n :: ns => max n.depth (itemsDepth ns)

/-- The depth of the deepest member. -/
def membersDepth : List (String × Node) → Nat
  | [] => 0
  | (_, n) :: ms => max n.depth (membersDepth ms)

end

/-- A node down to the given depth with its records accumulated. The flag says whether the objects
of the node are records; otherwise they are expressions, and only the queries of subqueries are
records. -/
def accumulate : (depth : Nat) → (record : Bool) → Node → Node
  | 0, _, n => n
  | depth + 1, record, .list items => .list (items.map (accumulate depth record))
  | depth + 1, true, .object members =>
    .object ((accumulated [] members).map fun (name, n) =>
      (name,
        if isLasting name then accumulate depth true n
        else if expressionPlaces.contains (Text.fold name) then accumulate depth false n
        else n))
  | depth + 1, false, .object members =>
    let query := isQueryType (objectType members)
    .object (members.map fun (name, n) => (name, accumulate depth (query && name = "select") n))
  | _ + 1, _, n => n

/-! ### Settled documents -/

/-- An expression made ready for reading. -/
def settled (n : Node) : Node :=
  let m := n.withCanonicalQueries
  accumulate m.depth false m

/-- A record made ready for reading; the record itself is never a subquery. -/
def settledRecord : Node → Node
  | .object members =>
    let m := Node.object (membersWithCanonicalQueries false members)
    accumulate m.depth true m
  | n => n

end CqlGateway.Node

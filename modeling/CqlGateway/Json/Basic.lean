/-!
# JSON documents

A document keeps what a text says beyond its data: the spelling of numbers, the order of the
members of an object, and members that repeat a name.
-/

namespace CqlGateway

inductive Json where
  | null
  | bool (value : Bool)
  /-- A number, by the text that spells it. -/
  | number (literal : String)
  | text (value : String)
  | array (items : List Json)
  /-- The members in the order written; a name may occur more than once. -/
  | object (members : List (String × Json))
  deriving Inhabited

namespace Json

/-- The value of the last member of the given name. -/
def lookup? (name : String) : List (String × Json) → Option Json
  | [] => none
  | (key, value) :: rest =>
    match lookup? name rest with
    | some found => some found
    | none => if key = name then some value else none

def member? (name : String) : Json → Option Json
  | .object members => lookup? name members
  | _ => none

mutual

/-- How deep arrays and objects are nested in a value. -/
def depth : Json → Nat
  | .array items => itemsDepth items + 1
  | .object members => membersDepth members + 1
  | _ => 0

/-- The depth of the deepest item. -/
def itemsDepth : List Json → Nat
  | [] => 0
  | v :: vs => max v.depth (itemsDepth vs)

/-- The depth of the deepest member. -/
def membersDepth : List (String × Json) → Nat
  | [] => 0
  | (_, v) :: ms => max v.depth (membersDepth ms)

end

def int (n : Int) : Json :=
  .number (toString n)

def texts (items : List String) : Json :=
  .array (items.map .text)

end Json

end CqlGateway

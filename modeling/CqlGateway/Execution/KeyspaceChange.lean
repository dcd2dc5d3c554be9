import CqlGateway.Text.Scan

/-!
# Changes of keyspaces

A statement that creates or drops a keyspace is recognised by its first words. Quoted names keep
their case, bare names are folded to small letters.
-/

namespace CqlGateway.Execution

inductive KeyspaceAction where
  | add
  | remove
  deriving DecidableEq, Repr

def KeyspaceAction.name : KeyspaceAction → String
  | .add => "add"
  | .remove => "remove"

structure KeyspaceChange where
  action : KeyspaceAction
  keyspace : String
  deriving DecidableEq, Repr

/-- The units of a quoted name: characters other than the quote, and doubled quotes, which stand
for one. Reading stops at a single quote or at the end; the result holds the units, reversed, and
whether the name was closed. -/
def quotedUnits (units : List Char) : List Char → List Char × Bool
  | '"' :: '"' :: cs => quotedUnits ('"' :: units) cs
  | '"' :: _ => (units, true)
  | c :: cs => quotedUnits (c :: units) cs
  | [] => (units, false)

/-- The name that follows an opening quote. If it is not closed, the last doubled quote counts as
the closing one. A name has at least one character. -/
def quotedName? (cs : List Char) : Option (List Char) :=
  let (units, closed) := quotedUnits [] cs
  let units := if closed then units else (units.dropWhile (· ≠ '"')).tail
  if units.isEmpty then none else some units.reverse

def keyspaceName? : List Char → Option String
  | '"' :: cs => (quotedName? cs).map String.ofList
  | cs => (Text.plainWord? cs).map fun (word, _) => Text.lower (String.ofList word)

/-- The rest of a text after words with gaps behind them. -/
def words? : List String → List Char → Option (List Char)
  | [], cs => some cs
  | w :: ws, cs => (Text.wordAndGap? [w] cs).bind (words? ws)

/-- The keyspace that a text starts with, after the given words or without them. -/
def guardedName? (guard : List String) (cs : List Char) : Option String :=
  ((words? guard cs).bind keyspaceName?).or (keyspaceName? cs)

def createdKeyspace? (cs : List Char) : Option String :=
  (words? ["create", "keyspace"] cs).bind (guardedName? ["if", "not", "exists"])

def droppedKeyspace? (cs : List Char) : Option String :=
  (words? ["drop", "keyspace"] cs).bind (guardedName? ["if", "exists"])

def keyspaceChange? (statement : String) : Option KeyspaceChange :=
  let cs := statement.toList.dropWhile Text.isGap
  match createdKeyspace? cs with
  | some name => some ⟨.add, name⟩
  | none => (droppedKeyspace? cs).map fun name => ⟨.remove, name⟩

end CqlGateway.Execution

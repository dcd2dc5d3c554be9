import CqlGateway.Execution.Coordinator

/-!
# Sessions of the store

A session is bound to a keyspace, so a statement that changes the keyspace is not sent to the
store: a session for the new keyspace takes the place of the old one. A session that was closed
answers every call with a failure.
-/

namespace CqlGateway.Execution

/-- A name in quotes after its opening quote, and the rest. Doubled quotes stand for one. -/
def quotedNameAndRest? : List Char → Option (List Char × List Char)
  | '"' :: '"' :: cs => (quotedNameAndRest? cs).map fun (name, rest) => ('"' :: name, rest)
  | '"' :: cs => some ([], cs)
  | c :: cs => (quotedNameAndRest? cs).map fun (name, rest) => (c :: name, rest)
  | [] => none

/-- A keyspace at the front of a text, and the rest. -/
def keyspaceAndRest? : List Char → Option (String × List Char)
  | '"' :: cs =>
    match quotedNameAndRest? cs with
    | some ([], _) => none
    | some (name, rest) => some (String.ofList name, rest)
    | none => none
  | cs => (Text.plainWord? cs).map fun (word, rest) => (Text.lower (String.ofList word), rest)

def usedKeyspace? (statement : String) : Option String := do
  let cs ← Text.wordAndGap? ["use"] (statement.toList.dropWhile Text.isGap)
  let (name, rest) ← keyspaceAndRest? cs
  if Text.atCommandEnd rest then some name else none

def closedFailure : Failure :=
  .plain "cassandra session is closed"

/-- A store whose session was closed. -/
def closedStore : Store := fun _ _ => .failed closedFailure

end CqlGateway.Execution

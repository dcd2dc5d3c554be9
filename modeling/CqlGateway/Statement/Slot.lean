import CqlGateway.Statement.Rejection
import CqlGateway.Statement.Settled

/-!
# Filling slots from documents

A statement is a record, and its document fills the slots of the record one member at a time. The
name of a member is matched to that of a slot ignoring case; members that match no slot are
ignored. A slot that is filled again keeps what the new value does not speak about: `null` leaves
texts, flags, numbers and records as they are, and records take over single members. A list is
filled anew; in a settled document it says all that the slot holds.

A value of the wrong kind and a malformed expression leave their slot as it is. The reader takes
note of the first of them and goes on.
-/

namespace CqlGateway

inductive ReadingFault where
  /-- A value is of the wrong kind. -/
  | mismatch
  /-- An expression is malformed. -/
  | rejected (reason : Rejection)
  deriving DecidableEq, Repr

/-- A reader of documents: its state is the first fault that it came upon. -/
abbrev Reading (α : Type) := StateM (Option ReadingFault) α

namespace Reading

/-- Leave a slot as it is because of a fault. -/
def refuse {α : Type} (fault : ReadingFault) (old : α) : Reading α := do
  modify (·.or (some fault))
  return old

/-- Leave a slot as it is because the value does not fit. -/
def mismatch {α : Type} (old : α) : Reading α :=
  refuse .mismatch old

/-- Fill a slot with a value that may be malformed. -/
def ofExcept {α : Type} (old : α) (r : Except Rejection α) : Reading α :=
  match r with
  | .ok a => pure a
  | .error e => refuse (.rejected e) old

/-- What reading ends with: the result, or the first fault. -/
def result {α : Type} (r : Reading α) : Except ReadingFault α :=
  match r.run none with
  | (a, none) => .ok a
  | (_, some fault) => .error fault

def text (old : String) : Node → Reading String
  | .null => pure old
  | .text s => pure s
  | _ => mismatch old

def flag (old : Bool) : Node → Reading Bool
  | .null => pure old
  | .bool b => pure b
  | _ => mismatch old

def integer (old : Int) : Node → Reading Int
  | .null => pure old
  | .number literal =>
    match Integer64.read? literal with
    | some n => pure n
    | none => mismatch old
  | _ => mismatch old

/-- Fill a slot for a text that may be absent. -/
def optionalText (old : Option String) : Node → Reading (Option String)
  | .null => pure none
  | .text s => pure (some s)
  | _ => mismatch old

/-- Fill a record, one member after the other, by a function that takes the name of a slot in
folded form. -/
def record {α : Type} (fill : α → String → Node → Reading α) (old : α) : Node → Reading α
  | .null => pure old
  | .object members => members.foldlM (fun a (name, n) => fill a (Text.fold name) n) old
  | _ => mismatch old

def items {α : Type} (fill : α → Node → Reading α) (blank : α) : List Node → Reading (List α)
  | [] => pure []
  | n :: ns => do return (← fill blank n) :: (← items fill blank ns)

def list {α : Type} (fill : α → Node → Reading α) (blank : α) : Node → Reading (List α)
  | .null => pure []
  | .list ns => items fill blank ns
  | _ => mismatch []

/-- Fill a list of which it is kept whether it was given. -/
def optionalList {α : Type} (fill : α → Node → Reading α) (blank : α) :
    Node → Reading (Option (List α))
  | .null => pure none
  | .list ns => some <$> items fill blank ns
  | _ => mismatch none

/-- Fill named options, sorted by name. -/
def options (old : List (String × String)) : Node → Reading (List (String × String))
  | .null => pure []
  | .object members =>
    members.foldlM (fun opts (name, n) => do return insertMember name (← text "" n) opts) old
  | _ => mismatch old

def raw (n : Node) : Reading Node :=
  pure n.canonical

end Reading

def TableName.fill (t : TableName) (slot : String) (n : Node) : Reading TableName :=
  match slot with
  | "keyspace" => do return { t with keyspace := ← Reading.text t.keyspace n }
  | "name" => do return { t with name := ← Reading.text t.name n }
  | _ => pure t

def TableName.read : TableName → Node → Reading TableName :=
  Reading.record TableName.fill

end CqlGateway

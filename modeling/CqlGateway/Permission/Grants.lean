import CqlGateway.Failure
import CqlGateway.Text.Case
import CqlGateway.Text.Sorted

/-!
# Granted permissions

An authority of its own keeps two tables: the operations that subjects may run, and the keyspaces
that they have. Both are sets of rows. Operations are kept in small letters.
-/

namespace CqlGateway.Permission

/-- A row of a table: a subject and a value. -/
structure Grant where
  subject : String
  value : String
  deriving DecidableEq, Repr

/-- A set of rows. -/
abbrev GrantTable := List Grant

namespace GrantTable

/-- Without a row. -/
def erase (t : GrantTable) (subject value : String) : GrantTable :=
  t.filter fun g => !(g.subject = subject && g.value = value)

/-- With a row, once. -/
def insert (t : GrantTable) (subject value : String) : GrantTable :=
  erase t subject value ++ [⟨subject, value⟩]

/-- The values of a subject in ascending order. -/
def valuesOf (t : GrantTable) (subject : String) : List String :=
  Text.sort ((t.filter (·.subject = subject)).map (·.value))

end GrantTable

/-- The tables of the authority. -/
structure Grants where
  operations : GrantTable := []
  keyspaces : GrantTable := []
  /-- Whether the tables are closed, after which nothing can be done with them. -/
  closed : Bool := false
  deriving DecidableEq, Repr

namespace Grants

/-- What the database says once it is closed. -/
def closedFailure (context : String) : Failure :=
  .wrapped context (.foreign "sql: database is closed")

/-- Do something with the tables unless they are closed. -/
def whenOpen {α : Type} (g : Grants) (context : String) (a : α) : Except Failure α :=
  if g.closed then .error (closedFailure context) else .ok a

/-- Open the tables; they are created if they are not there. -/
def reopen (g : Grants) : Except Failure Grants :=
  g.whenOpen "failed to create permission tables" g

def grant (g : Grants) (subject : String) : List String → Except Failure Grants
  | [] => .ok g
  | op :: ops => do
    let next := { g with operations := g.operations.insert subject (Text.lower op) }
    grant (← g.whenOpen "failed to begin transaction" next) subject ops

def revoke (g : Grants) (subject : String) : List String → Except Failure Grants
  | [] => .ok g
  | op :: ops => do
    let next := { g with operations := g.operations.erase subject (Text.lower op) }
    revoke (← g.whenOpen ("failed to revoke " ++ op ++ " from " ++ subject) next) subject ops

def addKeyspace (g : Grants) (subject keyspace : String) : Except Failure Grants :=
  g.whenOpen "failed to begin transaction"
    { g with keyspaces := g.keyspaces.insert subject keyspace }

def removeKeyspace (g : Grants) (subject keyspace : String) : Except Failure Grants :=
  g.whenOpen ("failed to remove keyspace " ++ keyspace ++ " for " ++ subject)
    { g with keyspaces := g.keyspaces.erase subject keyspace }

def allowedOperations (g : Grants) (subject : String) : Except Failure (List String) :=
  g.whenOpen "failed to query permissions" (g.operations.valuesOf subject)

def keyspacesOf (g : Grants) (subject : String) : Except Failure (List String) :=
  g.whenOpen "failed to query permissions" (g.keyspaces.valuesOf subject)

def close (g : Grants) : Grants :=
  { g with closed := true }

end Grants

end CqlGateway.Permission

import CqlGateway.Failure
import CqlGateway.Text.Blank
import CqlGateway.Text.Case
import CqlGateway.Text.Sorted

/-!
# The permission cache

The operations that a subject may run are fetched from an authority and kept for a bounded time.
The cache holds a bounded number of subjects; when it is full, the subject that was not used for
the longest time makes room. A fetch that fails grants nothing and changes nothing.

Times are in nanoseconds.
-/

namespace CqlGateway.Permission

/-- An operation in the form in which permissions are compared. -/
def normalizeOperation (op : String) : String :=
  Text.lower (Text.trim op)

def wildcard : String := "all"

/-- The permissions of a subject as they were fetched. -/
structure Entry where
  subject : String
  /-- The operations in ascending order. -/
  operations : List String
  refreshedAt : Int
  deriving DecidableEq, Repr

structure Cache where
  /-- How long permissions are fresh. -/
  ttl : Int
  /-- How many subjects are kept. -/
  size : Nat
  /-- The entries, the one used last in front. -/
  entries : List Entry := []
  deriving DecidableEq, Repr

/-- What an authority says of a subject that shows a credential. -/
abbrev Fetcher := String → String → Except Failure (List String)

inductive LookupResult where
  | hit
  | miss
  | error
  deriving DecidableEq, Repr

/-- The name of a way to answer. -/
def LookupResult.name : LookupResult → String
  | .hit => "hit"
  | .miss => "miss"
  | .error => "error"

structure Lookup where
  operations : List String
  result : LookupResult
  cache : Cache

namespace Cache

/-- Fifteen minutes. -/
def standardTtl : Int := 900000000000

/-- The number of subjects that are kept unless it is set. -/
def standardSize : Nat := 4096

/-- An empty cache; settings that are not positive are replaced by the standard ones. -/
def ofSettings (ttl size : Int) : Cache where
  ttl := if ttl ≤ 0 then standardTtl else ttl
  size := if size ≤ 0 then standardSize else size.toNat

/-- An empty cache for the permissions that an authority grants; there has to be one. -/
def create (fetcher? : Option Fetcher) (ttl size : Int) : Except Failure Cache :=
  match fetcher? with
  | none => .error (.plain "permission cache requires a fetcher")
  | some _ => .ok (ofSettings ttl size)

def find? (c : Cache) (subject : String) : Option Entry :=
  c.entries.find? (·.subject = subject)

def erase (c : Cache) (subject : String) : Cache :=
  { c with entries := c.entries.filter (·.subject ≠ subject) }

def clear (c : Cache) : Cache :=
  { c with entries := [] }

def touch (c : Cache) (e : Entry) : Cache :=
  { c with entries := e :: (c.erase e.subject).entries }

/-- The cache with a new entry; the entry used least recently makes room for it. -/
def insert (c : Cache) (e : Entry) : Cache :=
  { c with entries := (c.touch e).entries.take c.size }

/-- The operations that an authority grants, in the form in which they are compared. -/
def operationSet (granted : List String) : List String :=
  Text.sortOnce ((granted.map normalizeOperation).filter (· ≠ ""))

/-- Fetch the operations of a subject. The fetch is completed at the given time. -/
def fetch (c : Cache) (fetcher : Fetcher) (completed : Int) (subject credential : String) :
    Lookup :=
  match fetcher subject credential with
  | .error _ => ⟨[], .error, c⟩
  | .ok granted =>
    let operations := operationSet granted
    ⟨operations, .miss, c.insert ⟨subject, operations, completed⟩⟩

/-- The operations of a subject at a time, fetched if those in the cache are missing or stale; a
fetch is completed at the second time. -/
def operations (c : Cache) (fetcher : Fetcher) (now completed : Int)
    (subject credential : String) : Lookup :=
  match c.find? subject with
  | some e =>
    if now - e.refreshedAt < c.ttl then ⟨e.operations, .hit, c.touch e⟩
    else (c.touch e).fetch fetcher completed subject credential
  | none => c.fetch fetcher completed subject credential

end Cache

/-- Whether operations grant the given one. -/
def grants (operations : List String) (operation : String) : Bool :=
  operations.contains wildcard || operations.contains (normalizeOperation operation)

end CqlGateway.Permission

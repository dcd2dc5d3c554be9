import CqlGateway.Permission.Cache

/-!
# The permission guard

A request needs a subject, and unless it is public it needs a permission for its operation. A
request that declares no operation is denied, unless the guard is told to let it pass.
-/

namespace CqlGateway.Permission

structure Request where
  subject : String := ""
  credential : String := ""
  operation : String := ""
  isPublic : Bool := false
  deriving DecidableEq, Repr

inductive Denial where
  | noSubject
  | noOperation
  | notGranted (subject operation : String)
  deriving DecidableEq, Repr

def Denial.message : Denial → String
  | .noSubject => "caller identity is required"
  | .noOperation => "request declares no operation"
  | .notGranted subject operation =>
    subject ++ " is not allowed to run " ++ operation ++ " statements"

def Denial.failure (d : Denial) : Failure :=
  .denied d.message

/-- How the guard decides without looking at permissions; `none` if it has to look. -/
def decideEarly? (allowUnannotated : Bool) (r : Request) : Option (Except Denial Unit) :=
  if r.subject = "" then some (.error .noSubject)
  else if r.isPublic then some (.ok ())
  else if r.operation = "" then
    if allowUnannotated then some (.ok ()) else some (.error .noOperation)
  else none

structure Decision where
  verdict : Except Denial Unit
  cache : Cache
  /-- How the permissions were looked up, if they were. -/
  lookup? : Option LookupResult

/-- Decide on a request. A lookup happens at the first time, and a fetch is completed at the
second. -/
def authorize (allowUnannotated : Bool) (cache : Cache) (fetcher : Fetcher) (now completed : Int)
    (r : Request) : Decision :=
  match decideEarly? allowUnannotated r with
  | some verdict => ⟨verdict, cache, none⟩
  | none =>
    let lookup := cache.operations fetcher now completed r.subject r.credential
    let verdict :=
      if grants lookup.operations r.operation then .ok ()
      else .error (.notGranted r.subject r.operation)
    ⟨verdict, lookup.cache, some lookup.result⟩

end CqlGateway.Permission

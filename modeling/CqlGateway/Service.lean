import CqlGateway.Cql.Engine
import CqlGateway.Execution.Coordinator
import CqlGateway.Permission.Guard

/-!
# The service

A request is a statement, or a text that gives one. It is rendered, and if the request asks for
it, the rendering is executed. An execution needs a store, and a guard that permits the operation
of the statement to the caller. What goes wrong on the way is told in the result; a breakdown of
the parser is a result as well.

The service keeps what the guard knows, the calls of the store and the counters from one request
to the next.
-/

namespace CqlGateway

open Execution (Store StoreCall Caller Notification Outcome)

inductive Subject where
  | statement (s : Statement)
  | text (t : String)

structure ServiceRequest where
  subject : Subject
  execute : Bool := false
  caller : Caller := {}

/-- The result of a request. A successful one has an output and a summary, a failed one a
diagnostic and a category. -/
structure ServiceResult where
  success : Bool := false
  output : String := ""
  diagnostic : String := ""
  category : String := ""
  warnings : List String := []
  operation : String := ""
  summary : String := ""
  execution? : Option Outcome := none

namespace ServiceResult

def succeed (r : ServiceResult) (output : String) : ServiceResult :=
  { r with success := true, output := output, summary := Operation.summaryOf r.operation }

def fail (r : ServiceResult) (f : Failure) : ServiceResult :=
  { r with
    success := false, output := ""
    diagnostic := f.diagnostic, category := f.category.name }

end ServiceResult

/-- The guard of a service: how it treats requests without operation, and whom it asks. -/
structure ServiceGuard where
  allowUnannotated : Bool := false
  fetcher : Permission.Fetcher

structure Service where
  options : RenderingOptions := {}
  countsRenderings : Bool := false
  parser : StatementParser := documentParser
  guard? : Option ServiceGuard := none
  store? : Option Store := none

structure ServiceState where
  cache : Permission.Cache
  /-- The calls of the store, the last one in front. -/
  history : List StoreCall := []
  metrics : Metrics := {}

/-- When a request is handled: the time at which permissions are looked up, and the time at which
a fetch of permissions is completed. -/
structure Moment where
  now : Int
  completed : Int
  deriving DecidableEq, Repr

structure Handled where
  result : ServiceResult
  state : ServiceState
  /-- How permissions were looked up, if they were. -/
  lookup? : Option Permission.LookupResult := none
  notifications : List Notification := []

namespace Service

/-- The failure of a request that could not be handled because something broke down. -/
def panicFailure (value : String) : Failure :=
  .assertion ("panic while handling request: " ++ value)

def noStoreFailure : Failure :=
  .plain "execution is not configured"

def noGuardFailure : Failure :=
  .hinted "set authority.type to http or sql"
    (.denied "execution requires a permission authority")

/-- The attempt to render what a request asks for. -/
def attempt (s : Service) : Subject → Except String Attempt
  | .statement st => .ok (Attempt.ofStatement s.options st)
  | .text t => Attempt.ofText s.options (some s.parser) t

def countAttempt (s : Service) (a : Attempt) (m : Metrics) : Metrics :=
  match a.counted?, s.countsRenderings with
  | some kind, true => m.observeRendering kind a.outcome.isOk
  | _, _ => m

/-- Execute a text on behalf of a caller. The last argument says which notifications succeed. -/
def run (store : Store) (state : ServiceState) (caller : Caller) (text : String)
    (r : ServiceResult) (delivered : Notification → Bool) : Handled :=
  let outcome := Execution.execute store state.history text
  let r := { r with execution? := some outcome }
  { result :=
      match outcome.failure? with
      | some f => r.fail f
      | none => r.succeed text
    state :=
      { state with
        history := outcome.calls.reverse ++ state.history
        metrics := outcome.observe caller delivered state.metrics }
    notifications := outcome.notifications caller }

def runGuarded (store : Store) (guard : ServiceGuard) (state : ServiceState) (moment : Moment)
    (caller : Caller) (text : String) (r : ServiceResult) (delivered : Notification → Bool) :
    Handled :=
  let decision :=
    Permission.authorize guard.allowUnannotated state.cache guard.fetcher moment.now
      moment.completed ⟨caller.subject, caller.credential, r.operation, false⟩
  let metrics :=
    match decision.lookup? with
    | some result => state.metrics.observeLookup result.name
    | none => state.metrics
  let state := { state with cache := decision.cache, metrics := metrics }
  match decision.verdict with
  | .error denial => { result := r.fail denial.failure, state := state, lookup? := decision.lookup? }
  | .ok () =>
    { run store state caller text r delivered with lookup? := decision.lookup? }

def handle (s : Service) (state : ServiceState) (moment : Moment)
    (delivered : Notification → Bool) (q : ServiceRequest) : Handled :=
  match s.attempt q.subject with
  | .error value => ⟨({} : ServiceResult).fail (panicFailure value), state, none, []⟩
  | .ok a =>
    let state := { state with metrics := s.countAttempt a state.metrics }
    let r : ServiceResult := { operation := a.operationName }
    match a.outcome with
    | .error f => ⟨r.fail f, state, none, []⟩
    | .ok rendering =>
      let r := { r with warnings := rendering.warnings }
      if !q.execute then ⟨r.succeed rendering.text, state, none, []⟩
      else
        match s.store?, s.guard? with
        | none, _ => ⟨r.fail noStoreFailure, state, none, []⟩
        | some _, none => ⟨r.fail noGuardFailure, state, none, []⟩
        | some store, some guard =>
          runGuarded store guard state moment q.caller rendering.text r delivered

end Service

end CqlGateway

import CqlGateway.Service

/-!
# What surrounds a service

The authority that a guard asks may break down instead of answering, and so may a hook that is told
of an execution. The request then fails like one whose parser broke down: what was found out before
about its operation and its warnings is kept, and there is no outcome of an execution.

The hooks are those that are registered behind the one that notifies changes of keyspaces. They are
told of an execution that succeeded, in their order, up to the first that breaks down.
-/

namespace CqlGateway

namespace Permission

/-- Whether the permissions of a subject in the cache are fresh at a time. -/
def Cache.isFresh (c : Cache) (now : Int) (subject : String) : Bool :=
  (c.find? subject).any fun e => now - e.refreshedAt < c.ttl

/-- The cache once a subject was looked for, and nothing was fetched. -/
def Cache.sought (c : Cache) (subject : String) : Cache :=
  match c.find? subject with
  | some e => c.touch e
  | none => c

/-- Whether the guard has to ask the authority about a request. -/
def asksAuthority (allowUnannotated : Bool) (cache : Cache) (now : Int) (r : Request) : Bool :=
  (decideEarly? allowUnannotated r).isNone && !cache.isFresh now r.subject

end Permission

/-- What may break down around a service: the authority and the hooks, which share a state. -/
structure Surroundings (σ : Type) where
  /-- The value with which the authority breaks down when it is asked about a subject that shows a
  credential, if it does. -/
  breakdown? : String → String → Option String := fun _ _ => none
  hooks : List (Execution.Hook σ) := []

namespace Service

variable {σ : Type}

/-- What comes of a request if the authority has to be asked about it and breaks down. -/
def brokenDown? (s : Service) (around : Surroundings σ) (state : ServiceState) (moment : Moment)
    (q : ServiceRequest) : Option Handled :=
  match s.attempt q.subject with
  | .error _ => none
  | .ok a =>
    match a.outcome, q.execute, s.store?, s.guard? with
    | .ok rendering, true, some _, some guard =>
      let request : Permission.Request :=
        ⟨q.caller.subject, q.caller.credential, a.operationName, false⟩
      if Permission.asksAuthority guard.allowUnannotated state.cache moment.now request then
        (around.breakdown? request.subject request.credential).map fun value =>
          let r : ServiceResult := { operation := a.operationName, warnings := rendering.warnings }
          { result := r.fail (panicFailure value)
            state :=
              { state with
                cache := state.cache.sought request.subject
                metrics := s.countAttempt a state.metrics } }
      else
        none
    | _, _, _, _ => none

/-- Tell the hooks of what has come of a request, if it was executed with success. A hook that
breaks down makes the request fail. -/
def tell (around : Surroundings σ) (caller : Execution.Caller) (h : Handled) (kept : σ) :
    Handled × σ :=
  match h.result.execution? with
  | none => (h, kept)
  | some outcome =>
    if outcome.success then
      let event : Execution.Event :=
        ⟨h.result.output, outcome.statements, outcome.mode, caller⟩
      match Execution.tellAll event around.hooks kept with
      | (kept, none) => (h, kept)
      | (kept, some value) =>
        let r : ServiceResult :=
          { operation := h.result.operation, warnings := h.result.warnings }
        ({ h with result := r.fail (panicFailure value) }, kept)
    else
      (h, kept)

/-- Handle a request, whatever breaks down around the service. The hooks leave a state behind. -/
def respond (s : Service) (around : Surroundings σ) (state : ServiceState) (kept : σ)
    (moment : Moment) (delivered : Execution.Notification → Bool) (q : ServiceRequest) :
    Handled × σ :=
  match s.brokenDown? around state moment q with
  | some h => (h, kept)
  | none => tell around q.caller (s.handle state moment delivered q) kept

end Service

end CqlGateway

import CqlGateway.Proofs.Permission.History
import CqlGateway.Service

/-!
# Complete mediation

A request reaches the store only if it asks for an execution, renders, finds a store and a guard,
names its caller, and the permission cache allows the operation of its statement to the caller. What
is executed then is the rendering. Every other request leaves the store alone and fails if it asked
for an execution. This holds at every point of a run, whatever the requests before have left behind.
-/

namespace CqlGateway

open Execution

/-- A request as it comes to a service: the service with the authority that it asks at that time,
the times of the lookup, and which notifications are delivered. -/
structure Visit where
  service : Service
  moment : Moment
  delivered : Notification → Bool
  request : ServiceRequest

namespace Visit

/-- What comes of a visit. -/
def handled (v : Visit) (state : ServiceState) : Handled :=
  v.service.handle state v.moment v.delivered v.request

/-- A visit whose rendering may be handed to the store. -/
structure IsCleared (v : Visit) (state : ServiceState) (s : Statement) (r : Rendering)
    (store : Store) : Prop where
  asked : v.request.execute = true
  rendered : ∃ a, v.service.attempt v.request.subject = .ok a
    ∧ a.statement? = some s ∧ a.outcome = .ok r
  store_eq : v.service.store? = some store
  known : v.request.caller.subject ≠ ""
  /-- The cache answers that the caller may run the operation of the statement. -/
  permitted : ∃ guard, v.service.guard? = some guard
    ∧ state.cache.hasPermission guard.fetcher v.moment.now v.moment.completed
      v.request.caller.subject s.operation.name v.request.caller.credential = true

/-- A visit that is cleared executes its rendering. -/
def IsExecuted (v : Visit) (state : ServiceState) (r : Rendering) (store : Store) : Prop :=
  (v.handled state).state.history
      = (execute store state.history r.text).calls.reverse ++ state.history
    ∧ (v.handled state).result.execution? = some (execute store state.history r.text)
    ∧ (v.handled state).notifications
      = (execute store state.history r.text).notifications v.request.caller

/-- A visit that is not cleared executes nothing: the store is not called, there is no outcome that
hooks could be told of, and a request to execute fails without an output. -/
def IsRefused (v : Visit) (state : ServiceState) : Prop :=
  (v.handled state).state.history = state.history
    ∧ (v.handled state).result.execution? = none
    ∧ (v.handled state).notifications = []
    ∧ (v.request.execute = true →
      (v.handled state).result.success = false ∧ (v.handled state).result.output = "")

/-- A visit is executed if it is cleared, and refused if it is not. -/
def IsMediated (v : Visit) (state : ServiceState) : Prop :=
  (∃ s r store, v.IsCleared state s r store ∧ v.IsExecuted state r store)
    ∨ (¬ ∃ s r store, v.IsCleared state s r store) ∧ v.IsRefused state

end Visit

/-! ### The guard -/

theorem Operation.name_ne_empty (op : Operation) :
  op.name ≠ ""
  := by
  cases op <;> decide

/-- A request that declares an operation passes the guard exactly if its subject is known and the
cache allows the operation, whether or not the guard lets requests without operation pass. -/
theorem Permission.authorize_verdict
    (allowUnannotated : Bool) (cache : Permission.Cache) (fetcher : Permission.Fetcher)
    (now completed : Int) (subject credential : String) {operation : String}
    (hoperation : operation ≠ "") :
  (Permission.authorize allowUnannotated cache fetcher now completed
      ⟨subject, credential, operation, false⟩).verdict = .ok ()
    ↔ subject ≠ "" ∧ cache.hasPermission fetcher now completed subject operation credential = true
  := by
  unfold Permission.authorize Permission.decideEarly?
  by_cases hsubject : subject = ""
  · simp [hsubject]
  · simp [hsubject, hoperation, Permission.Cache.hasPermission]

/-! ### Attempts -/

/-- An attempt is that of a statement, or there is no statement and nothing is rendered. -/
theorem Service.attempt_cases {service : Service} {subject : Subject} {a : Attempt}
    (ha : service.attempt subject = .ok a) :
  (∃ s, a = .ofStatement service.options s)
    ∨ a.statement? = none
      ∧ (a.outcome = .error Statement.absentFailure
        ∨ ∃ cause text, a.outcome = .error (.parse cause text))
  := by
  cases subject with
  | statement s =>
    cases ha
    exact .inl ⟨s, rfl⟩
  | text t =>
    simp only [attempt, Attempt.ofText] at ha
    split at ha
    next d _ =>
      cases ha
      exact .inl ⟨.describe d, rfl⟩
    next =>
      simp only [Attempt.ofParser] at ha
      split at ha
      next s _ =>
        cases ha
        exact .inl ⟨s, rfl⟩
      next cause _ =>
        cases ha
        exact .inr ⟨rfl, .inr ⟨cause, t, rfl⟩⟩
      next =>
        cases ha
        exact .inr ⟨rfl, .inl rfl⟩
      next => cases ha

theorem Service.statement_of_attempt {service : Service} {subject : Subject} {a : Attempt}
    {r : Rendering} (ha : service.attempt subject = .ok a) (hr : a.outcome = .ok r) :
  ∃ s, a.statement? = some s
  := by
  rcases attempt_cases ha with ⟨s, rfl⟩ | ⟨-, hfailed | ⟨cause, text, hfailed⟩⟩
  · exact ⟨s, rfl⟩
  · cases hfailed.symm.trans hr
  · cases hfailed.symm.trans hr

/-! ### Guarded runs -/

namespace Service

variable {store : Store} {guard : ServiceGuard} {state : ServiceState} {moment : Moment}
  {caller : Caller} {text : String} {r : ServiceResult} {delivered : Notification → Bool}

theorem execution?_run :
  (run store state caller text r delivered).result.execution?
    = some (execute store state.history text)
  := by
  unfold run
  dsimp only
  split <;> rfl

theorem runGuarded_of_ok
    (h : (Permission.authorize guard.allowUnannotated state.cache guard.fetcher moment.now
      moment.completed ⟨caller.subject, caller.credential, r.operation, false⟩).verdict = .ok ()) :
  (runGuarded store guard state moment caller text r delivered).state.history
      = (execute store state.history text).calls.reverse ++ state.history
    ∧ (runGuarded store guard state moment caller text r delivered).result.execution?
      = some (execute store state.history text)
    ∧ (runGuarded store guard state moment caller text r delivered).notifications
      = (execute store state.history text).notifications caller
  := by
  simp only [runGuarded, h]
  exact ⟨rfl, execution?_run, rfl⟩

theorem runGuarded_of_error (state : ServiceState) (r : ServiceResult) {denial : Permission.Denial}
    (h : (Permission.authorize guard.allowUnannotated state.cache guard.fetcher moment.now
      moment.completed ⟨caller.subject, caller.credential, r.operation, false⟩).verdict
        = .error denial) :
  (runGuarded store guard state moment caller text r delivered).state.history = state.history
    ∧ (runGuarded store guard state moment caller text r delivered).result
      = r.fail denial.failure
    ∧ (runGuarded store guard state moment caller text r delivered).notifications = []
  := by
  simp [runGuarded, h]

end Service

/-! ### Visits -/

namespace Visit

variable {v : Visit} {state : ServiceState}

/-- A rendering that is to be executed, with a store and a guard at hand, is executed if the caller
is known and permitted, and refused otherwise. -/
theorem isMediated_of_guarded {a : Attempt} {s : Statement} {r : Rendering} {store : Store}
    {guard : ServiceGuard} (ha : v.service.attempt v.request.subject = .ok a)
    (hs : a.statement? = some s) (hr : a.outcome = .ok r) (hexecute : v.request.execute = true)
    (hstore : v.service.store? = some store) (hguard : v.service.guard? = some guard) :
  v.IsMediated state
  := by
  let counted := { state with metrics := v.service.countAttempt a state.metrics }
  let result : ServiceResult := { operation := s.operation.name, warnings := r.warnings }
  have hhandled : v.handled state
      = Service.runGuarded store guard counted v.moment v.request.caller r.text result
        v.delivered := by
    have hname : a.operationName = s.operation.name := by
      rw [Attempt.operationName, hs]
    simp [handled, Service.handle, ha, hr, hexecute, hstore, hguard, hname, counted, result]
  have hverdict := Permission.authorize_verdict guard.allowUnannotated state.cache guard.fetcher
    v.moment.now v.moment.completed v.request.caller.subject v.request.caller.credential
    s.operation.name_ne_empty
  cases hdecision : (Permission.authorize guard.allowUnannotated state.cache guard.fetcher
      v.moment.now v.moment.completed ⟨v.request.caller.subject, v.request.caller.credential,
        s.operation.name, false⟩).verdict with
  | ok u =>
    obtain ⟨hknown, hpermitted⟩ := hverdict.mp hdecision
    left
    refine ⟨s, r, store, ⟨hexecute, ⟨a, ha, hs, hr⟩, hstore, hknown, guard, hguard, hpermitted⟩, ?_⟩
    unfold IsExecuted
    rw [hhandled]
    apply Service.runGuarded_of_ok hdecision
  | error denial =>
    right
    constructor
    · rintro ⟨s', r', store', hcleared⟩
      obtain ⟨a', ha', hs', -⟩ := hcleared.rendered
      obtain ⟨guard', hguard', hpermitted⟩ := hcleared.permitted
      cases ha.symm.trans ha'
      cases hs.symm.trans hs'
      cases hguard.symm.trans hguard'
      rw [hverdict.mpr ⟨hcleared.known, hpermitted⟩] at hdecision
      cases hdecision
    · obtain ⟨hhistory, hresult, hnotifications⟩ :=
        Service.runGuarded_of_error counted result hdecision
      unfold IsRefused
      rw [hhandled, hresult]
      exact ⟨hhistory, rfl, hnotifications, fun _ => ⟨rfl, rfl⟩⟩

/-- Every request is executed if it is cleared, and refused if it is not. -/
theorem isMediated (v : Visit) (state : ServiceState) :
  v.IsMediated state
  := by
  cases ha : v.service.attempt v.request.subject with
  | error value =>
    right
    constructor
    · rintro ⟨s, r, store, hcleared⟩
      obtain ⟨a, ha', -⟩ := hcleared.rendered
      cases ha.symm.trans ha'
    · simp [IsRefused, handled, Service.handle, ha, ServiceResult.fail]
  | ok a =>
    cases hr : a.outcome with
    | error f =>
      right
      constructor
      · rintro ⟨s, r, store, hcleared⟩
        obtain ⟨a', ha', -, hr'⟩ := hcleared.rendered
        cases ha.symm.trans ha'
        cases hr.symm.trans hr'
      · simp [IsRefused, handled, Service.handle, ha, hr, ServiceResult.fail]
    | ok r =>
      cases hexecute : v.request.execute with
      | false =>
        right
        constructor
        · rintro ⟨s, r, store, hcleared⟩
          cases hexecute.symm.trans hcleared.asked
        · simp [IsRefused, handled, Service.handle, ha, hr, hexecute, ServiceResult.succeed]
      | true =>
        cases hstore : v.service.store? with
        | none =>
          right
          constructor
          · rintro ⟨s, r, store, hcleared⟩
            cases hstore.symm.trans hcleared.store_eq
          · simp [IsRefused, handled, Service.handle, ha, hr, hexecute, hstore,
              ServiceResult.fail]
        | some store =>
          cases hguard : v.service.guard? with
          | none =>
            right
            constructor
            · rintro ⟨s, r, store, hcleared⟩
              obtain ⟨guard, hguard', -⟩ := hcleared.permitted
              cases hguard.symm.trans hguard'
            · simp [IsRefused, handled, Service.handle, ha, hr, hexecute, hstore,
                hguard, ServiceResult.fail]
          | some guard =>
            obtain ⟨s, hs⟩ := Service.statement_of_attempt ha hr
            apply isMediated_of_guarded ha hs hr hexecute hstore hguard

end Visit

/-! ### Runs -/

namespace ServiceState

/-- The visits of a run, each with the state in which it is handled. -/
def visited (state : ServiceState) : List Visit → List (ServiceState × Visit)
  | [] => []
  | v :: visits => (state, v) :: visited (v.handled state).state visits

/-- The state after the visits of a run. -/
def after (state : ServiceState) (visits : List Visit) : ServiceState :=
  visits.foldl (fun state v => (v.handled state).state) state

theorem mem_history_after {state : ServiceState} {visits : List Visit} {call : StoreCall}
    (h : call ∈ (state.after visits).history) :
  call ∈ state.history ∨ ∃ p ∈ state.visited visits, ∃ s r store, p.2.IsCleared p.1 s r store
    ∧ call ∈ (execute store p.1.history r.text).calls
  := by
  induction visits generalizing state with
  | nil => exact .inl h
  | cons v visits ih =>
    rcases ih h with h | ⟨p, hp, hcleared⟩
    · rcases v.isMediated state with ⟨s, r, store, hcleared, hexecuted⟩ | ⟨-, hrefused⟩
      · rw [hexecuted.1, List.mem_append, List.mem_reverse] at h
        rcases h with h | h
        · exact .inr ⟨(state, v), List.mem_cons_self, s, r, store, hcleared, h⟩
        · exact .inl h
      · rw [hrefused.1] at h
        exact .inl h
    · exact .inr ⟨p, List.mem_cons_of_mem (state, v) hp, hcleared⟩

/-- In every run, each request is executed if it is cleared and refused if it is not, and every call
of the store is made by the execution of a rendering that was cleared. -/
theorem visits_mediated (state : ServiceState) (visits : List Visit) :
  (∀ p ∈ state.visited visits, p.2.IsMediated p.1)
    ∧ ∀ call ∈ (state.after visits).history, call ∈ state.history
      ∨ ∃ p ∈ state.visited visits, ∃ s r store, p.2.IsCleared p.1 s r store
        ∧ call ∈ (execute store p.1.history r.text).calls
  := ⟨fun p _ => p.2.isMediated p.1, fun _ h => mem_history_after h⟩

end ServiceState

end CqlGateway

import CqlGateway.Proofs.Cql.Outcome
import CqlGateway.Proofs.Service.Mediation
import CqlGateway.Service.Surroundings

/-!
# The shape of results

A request may end at many points: the parser, the rendering, a store or a guard that is not there,
the guard, the store, a hook. Wherever it ends, the result has one of two shapes. A success has an
output and neither a diagnostic nor a category; a failure has a diagnostic and a category and
neither an output nor a summary. A request that asked for an execution and succeeded was executed
without a failure.

Every end is reached by `ServiceResult.succeed` or `ServiceResult.fail` from a result in which
nothing but the operation, the warnings and the outcome is set, so what is left to see is that a
rendering has a text and that every failure says something.
-/

namespace CqlGateway

open Execution (Store StoreCall Caller Notification Outcome)

variable {r : ServiceResult} {f : Failure} {text : String}

/-! ### Failures say something -/

namespace Failure

theorem withoutMarks_ne_empty {s : String} (h : s ≠ "") :
  withoutMarks s ≠ ""
  := by
  simpa [withoutMarks] using h

theorem message_plain_ne_empty {s : String} (h : s ≠ "") :
  (plain s).message ≠ ""
  := withoutMarks_ne_empty h

theorem message_wrapped_ne_empty {context : String} (h : context ≠ "") (cause : Failure) :
  (wrapped context cause).message ≠ ""
  := by
  simp [message, h, String.append_eq_empty_iff]

theorem message_parse_ne_empty (cause : Failure) (text : String) :
  (parse cause text).message ≠ ""
  := message_wrapped_ne_empty (by simp [String.append_eq_empty_iff]) cause

theorem message_execution_ne_empty (cause : Failure) :
  (execution cause).message ≠ ""
  := message_wrapped_ne_empty (by decide) cause

theorem diagnostic_ne_empty (h : f.message ≠ "") :
  f.diagnostic ≠ ""
  := by
  unfold diagnostic
  split
  · exact h
  · simp [String.append_eq_empty_iff]

end Failure

theorem Category.name_ne_empty (c : Category) :
  c.name ≠ ""
  := by
  cases c <;> decide

theorem Rejection.message_failure (r : Rejection) :
  r.failure.message = Failure.withoutMarks r.message
  := by
  unfold failure
  cases r.hint? <;> rfl

theorem Permission.Denial.message_failure_ne_empty (d : Permission.Denial) :
  d.failure.message ≠ ""
  := by
  change (Failure.plain d.message).message ≠ ""
  apply Failure.message_plain_ne_empty
  cases d <;> dsimp only [message] <;> simp [String.append_eq_empty_iff]

theorem Service.message_panicFailure_ne_empty (value : String) :
  (panicFailure value).message ≠ ""
  := Failure.message_plain_ne_empty (by simp [String.append_eq_empty_iff])

namespace Execution

variable {history : List StoreCall} {store : Store}

theorem BatchFault.message_failure_ne_empty (fault : BatchFault) :
  fault.failure.message ≠ ""
  := by
  change (Failure.plain fault.message).message ≠ ""
  apply Failure.message_plain_ne_empty
  cases fault <;> dsimp only [message] <;> simp [String.append_eq_empty_iff]

theorem message_statementFailure_ne_empty (mode : Mode) (number total : Nat) (cause : Failure) :
  (statementFailure mode number total cause).message ≠ ""
  := Failure.message_execution_ne_empty _

/-- A run of statements that did not fail before fails with a failure that says something. -/
theorem message_runAll_ne_empty {total number : Nat} {o : Outcome} {ss : List String}
    (ho : o.failure? = none) (h : (runAll store history total number o ss).failure? = some f) :
  f.message ≠ ""
  := by
  induction ss generalizing number o with
  | nil =>
    rw [runAll, ho] at h
    cases h
  | cons s ss ih =>
    rw [runAll] at h
    dsimp only at h
    split at h
    · cases h
      apply Failure.message_execution_ne_empty
    · cases h
      apply message_statementFailure_ne_empty
    · refine ih ?_ h
      exact ho

theorem message_runBatch_ne_empty {ss : List String}
    (h : (runBatch store history ss).failure? = some f) :
  f.message ≠ ""
  := by
  unfold runBatch at h
  dsimp only at h
  split at h
  · cases h
    apply Failure.message_execution_ne_empty
  · cases h
    apply Failure.message_execution_ne_empty
  · cases h

theorem message_execute_ne_empty (h : (execute store history text).failure? = some f) :
  f.message ≠ ""
  := by
  rw [execute] at h
  cases hbatch : batch? text with
  | none =>
    rw [hbatch] at h
    cases hstatements : statements text with
    | nil =>
      rw [hstatements] at h
      cases h
      apply Failure.message_plain_ne_empty
      decide
    | cons s ss =>
      rw [hstatements] at h
      cases ss <;> exact message_runAll_ne_empty rfl h
  | some found =>
    rw [hbatch] at h
    cases found with
    | error fault =>
      cases h
      apply fault.message_failure_ne_empty
    | ok ss => exact message_runBatch_ne_empty h

end Execution

/-! ### Shapes -/

/-- A result has the shape of a success or that of a failure; `execute` says whether an execution
was asked for. -/
structure ServiceResult.IsShaped (r : ServiceResult) (execute : Bool) : Prop where
  success : r.success = true → r.output ≠ "" ∧ r.diagnostic = "" ∧ r.category = ""
  failure : r.success = false →
    r.output = "" ∧ r.summary = "" ∧ r.diagnostic ≠ "" ∧ r.category ≠ ""
  execution : r.success = true → execute = true →
    ∃ outcome, r.execution? = some outcome ∧ outcome.failure? = none

/-- A result of which neither success nor failure is told yet. -/
structure ServiceResult.IsOpen (r : ServiceResult) : Prop where
  diagnostic : r.diagnostic = ""
  category : r.category = ""
  summary : r.summary = ""

namespace ServiceResult

theorem IsOpen.isShaped_fail (h : r.IsOpen) (hf : f.message ≠ "") (execute : Bool) :
  (r.fail f).IsShaped execute
  where
  success h := nomatch h
  failure _ := ⟨rfl, h.summary, Failure.diagnostic_ne_empty hf, Category.name_ne_empty _⟩
  execution h := nomatch h

theorem IsOpen.isShaped_succeed (h : r.IsOpen) {output : String}
    (houtput : output ≠ "") {execute : Bool}
    (hexecution : execute = true → ∃ outcome, r.execution? = some outcome
      ∧ outcome.failure? = none) :
  (r.succeed output).IsShaped execute
  where
  success _ := ⟨houtput, h.diagnostic, h.category⟩
  failure h := nomatch h
  execution _ := hexecution

end ServiceResult

/-! ### Requests -/

namespace Service

variable {σ : Type}

theorem message_noStoreFailure_ne_empty :
  noStoreFailure.message ≠ ""
  := Failure.message_plain_ne_empty (by decide)

theorem message_noGuardFailure_ne_empty :
  noGuardFailure.message ≠ ""
  := by
  change (Failure.plain "execution requires a permission authority").message ≠ ""
  exact Failure.message_plain_ne_empty (by decide)

theorem isShaped_run (store : Store) (state : ServiceState) (caller : Caller)
    (delivered : Notification → Bool) (htext : text ≠ "") (hr : r.IsOpen) :
  (run store state caller text r delivered).result.IsShaped true
  := by
  have hopen : { r with
      execution? := some (Execution.execute store state.history text) }.IsOpen :=
    ⟨hr.diagnostic, hr.category, hr.summary⟩
  unfold run
  dsimp only
  split
  next f hf => exact hopen.isShaped_fail (Execution.message_execute_ne_empty hf) true
  next hnone => exact hopen.isShaped_succeed htext fun _ => ⟨_, rfl, hnone⟩

theorem isShaped_runGuarded (store : Store) (guard : ServiceGuard) (state : ServiceState)
    (moment : Moment) (caller : Caller) (delivered : Notification → Bool) (htext : text ≠ "")
    (hr : r.IsOpen) :
  (runGuarded store guard state moment caller text r delivered).result.IsShaped true
  := by
  unfold runGuarded
  dsimp only
  split
  next denial _ => exact hr.isShaped_fail denial.message_failure_ne_empty true
  next => exact isShaped_run store _ caller delivered htext hr

/-- What an attempt comes to has a text, or it is a failure that says something. -/
theorem outcome_cases {s : Service} {subject : Subject} {a : Attempt}
    (ha : s.attempt subject = .ok a) :
  (∃ r, a.outcome = .ok r ∧ r.text ≠ "") ∨ ∃ f, a.outcome = .error f ∧ f.message ≠ ""
  := by
  rcases attempt_cases ha with ⟨st, rfl⟩ | ⟨-, houtcome | ⟨cause, text, houtcome⟩⟩
  · rcases st.render_cases s.options with ⟨r, hr, hne, -⟩ | ⟨reason, hreason⟩
    · exact .inl ⟨r, hr, hne⟩
    · refine .inr ⟨reason.failure, hreason, ?_⟩
      rw [reason.message_failure]
      exact Failure.withoutMarks_ne_empty reason.message_ne_empty
  · exact .inr ⟨_, houtcome, Failure.message_plain_ne_empty (by decide)⟩
  · exact .inr ⟨_, houtcome, Failure.message_parse_ne_empty cause text⟩

/-- A request gives a shaped result if neither the authority nor a hook breaks down. -/
theorem isShaped_handle (s : Service) (state : ServiceState) (moment : Moment)
    (delivered : Notification → Bool) (q : ServiceRequest) :
  (s.handle state moment delivered q).result.IsShaped q.execute
  := by
  unfold handle
  cases ha : s.attempt q.subject with
  | error value =>
    have hopen : ({} : ServiceResult).IsOpen := ⟨rfl, rfl, rfl⟩
    exact hopen.isShaped_fail (message_panicFailure_ne_empty value) _
  | ok a =>
    rcases outcome_cases ha with ⟨r, hr, htext⟩ | ⟨f, hf, hmessage⟩
    · have hopen : ({ operation := a.operationName, warnings := r.warnings } :
          ServiceResult).IsOpen := ⟨rfl, rfl, rfl⟩
      simp only [hr]
      cases hexecute : q.execute with
      | false => exact hopen.isShaped_succeed htext nofun
      | true =>
        cases s.store? with
        | none => exact hopen.isShaped_fail message_noStoreFailure_ne_empty true
        | some store =>
          cases s.guard? with
          | none => exact hopen.isShaped_fail message_noGuardFailure_ne_empty true
          | some guard =>
            exact isShaped_runGuarded store guard _ moment q.caller delivered htext hopen
    · have hopen : ({ operation := a.operationName } : ServiceResult).IsOpen :=
        ⟨rfl, rfl, rfl⟩
      simp only [hf]
      exact hopen.isShaped_fail hmessage _

theorem isShaped_brokenDown? {s : Service} {around : Surroundings σ} {state : ServiceState}
    {moment : Moment} {q : ServiceRequest} {h : Handled}
    (hbroken : s.brokenDown? around state moment q = some h) (execute : Bool) :
  h.result.IsShaped execute
  := by
  unfold brokenDown? at hbroken
  split at hbroken
  · cases hbroken
  · split at hbroken
    · dsimp only at hbroken
      split at hbroken
      · obtain ⟨value, -, rfl⟩ := Option.map_eq_some_iff.mp hbroken
        apply ServiceResult.IsOpen.isShaped_fail ⟨rfl, rfl, rfl⟩
        apply message_panicFailure_ne_empty
      · cases hbroken
    · cases hbroken

theorem isShaped_tell (around : Surroundings σ) (caller : Caller) {h : Handled} {execute : Bool}
    (hh : h.result.IsShaped execute) (kept : σ) :
  (tell around caller h kept).1.result.IsShaped execute
  := by
  unfold tell
  split
  · exact hh
  · split
    · dsimp only
      split
      · exact hh
      · apply ServiceResult.IsOpen.isShaped_fail ⟨rfl, rfl, rfl⟩
        apply message_panicFailure_ne_empty
    · exact hh

/-- Every request gives a shaped result, whatever the parser, the authority, the store and the hooks
do. -/
theorem isShaped_respond (s : Service) (around : Surroundings σ) (state : ServiceState) (kept : σ)
    (moment : Moment) (delivered : Notification → Bool) (q : ServiceRequest) :
  (s.respond around state kept moment delivered q).1.result.IsShaped q.execute
  := by
  unfold respond
  split
  next h hbroken => exact isShaped_brokenDown? hbroken q.execute
  next => exact isShaped_tell around q.caller (isShaped_handle s state moment delivered q) kept

end Service

end CqlGateway

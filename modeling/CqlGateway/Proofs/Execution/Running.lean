import CqlGateway.Execution.Coordinator
import Mathlib.Data.List.Basic

/-!
# Runs against a store

A store may answer, fail or break down at each call, and its reply may depend on all calls before.
What a run of statements can come to is said once: either every statement was answered, or the run
ended at the first one that was not. Everything else about a run follows from that.

Main statement: a text makes no call, one call for a batch, or calls for its first statements; the
outcome tells what was answered; a breakdown of the store is a failure like any other; and the hooks
are told of the run, one after another, exactly if it did not fail.
-/

namespace CqlGateway.Execution

variable {r : StoreReply}

/-! ### Replies -/

/-- The replies of a store to calls in order, given the calls before, the last one in front. -/
def replies (store : Store) : List StoreCall → List StoreCall → List StoreReply
  | _, [] => []
  | history, call :: calls => store history call :: replies store (call :: history) calls

/-- Whether a call was answered. -/
def StoreReply.IsDone (r : StoreReply) : Prop :=
  ∃ result, r = .done result

/-- The failure of a run that ends with the given reply; `describe` is for a call that failed. -/
def StoreReply.failureBy (describe : Failure → Failure) : StoreReply → Option Failure
  | .done _ => none
  | .failed cause => some (describe cause)
  | .panicked value => some (panicFailure value)

theorem StoreReply.failureBy_eq_none {describe : Failure → Failure} :
  r.failureBy describe = none ↔ r.IsDone
  := by
  cases r with
  | done result => exact ⟨fun _ => ⟨result, rfl⟩, fun _ => rfl⟩
  | failed cause =>
    constructor
    · intro h
      cases h
    · rintro ⟨_, h⟩
      cases h
  | panicked value =>
    constructor
    · intro h
      cases h
    · rintro ⟨_, h⟩
      cases h

/-- A statement that was answered, with its result. -/
abbrev Answer := String × Option ResultSet

/-- The statements that were answered, each with its result, given calls and the replies to them. -/
def answers : List StoreCall → List StoreReply → List Answer
  | .exec s :: calls, .done result :: rs => (s, result) :: answers calls rs
  | _ :: calls, _ :: rs => answers calls rs
  | _, _ => []

/-- The calls for statements that were answered. -/
def execCalls (as : List Answer) : List StoreCall :=
  as.map fun a => .exec a.1

/-- The replies to statements that were answered. -/
def doneReplies (as : List Answer) : List StoreReply :=
  as.map fun a => .done a.2

theorem answers_append (as : List Answer) (calls : List StoreCall) (rs : List StoreReply) :
  answers (execCalls as ++ calls) (doneReplies as ++ rs) = as ++ answers calls rs
  := by
  induction as with
  | nil => rfl
  | cons a as ih =>
    simp only [execCalls, doneReplies, List.map_cons, List.cons_append, answers] at ih ⊢
    rw [ih]

theorem answers_of_not_isDone {s : String} (hr : ¬ r.IsDone) :
  answers [.exec s] [r] = []
  := by
  cases r with
  | done result => cases hr ⟨result, rfl⟩
  | failed cause => rfl
  | panicked value => rfl

/-! ### Runs of statements -/

/-- An outcome with the statements that were answered after it. -/
def Outcome.withAnswers (o : Outcome) (as : List Answer) : Outcome :=
  { o with
    statements := o.statements ++ as.map Prod.fst
    result := (as.getLast?.map Prod.snd).getD o.result
    calls := o.calls ++ execCalls as }

theorem Outcome.withAnswers_nil (o : Outcome) :
  o.withAnswers [] = o
  := by
  simp [withAnswers, execCalls]

/-- The outcome after one more statement was answered. -/
def Outcome.answered (o : Outcome) (s : String) (result : Option ResultSet) : Outcome :=
  { o with calls := o.calls ++ [.exec s], statements := o.statements ++ [s], result := result }

theorem Outcome.withAnswers_answered (o : Outcome) (s : String) (result : Option ResultSet)
    (as : List Answer) :
  (o.answered s result).withAnswers as = o.withAnswers ((s, result) :: as)
  := by
  have hresult : (as.getLast?.map Prod.snd).getD result
      = (((s, result) :: as).getLast?.map Prod.snd).getD o.result := by
    rw [List.getLast?_cons]
    cases as.getLast? <;> rfl
  simp [withAnswers, answered, execCalls, hresult]

/-- What running statements one by one can come to: every statement was answered, or the run ended
at the first one that was not. -/
theorem runAll_cases (store : Store) (history : List StoreCall) (total number : Nat) (o : Outcome)
    (ss : List String) :
  (∃ as, ss = as.map Prod.fst
      ∧ replies store (o.calls.reverse ++ history) (execCalls as) = doneReplies as
      ∧ runAll store history total number o ss = o.withAnswers as)
    ∨ ∃ as s rest reply failure, ss = as.map Prod.fst ++ s :: rest
      ∧ replies store (o.calls.reverse ++ history) (execCalls as ++ [.exec s])
        = doneReplies as ++ [reply]
      ∧ reply.failureBy (statementFailure o.mode (number + as.length) total) = some failure
      ∧ runAll store history total number o ss
        = { o.withAnswers as with
            calls := (o.withAnswers as).calls ++ [.exec s], failure? := some failure }
  := by
  induction ss generalizing number o with
  | nil => exact .inl ⟨[], rfl, rfl, o.withAnswers_nil.symm⟩
  | cons s ss ih =>
    cases hreply : store (o.calls.reverse ++ history) (.exec s) with
    | done result =>
      have hrun : runAll store history total number o (s :: ss)
          = runAll store history total (number + 1) (o.answered s result) ss := by
        simp only [runAll, hreply]
        rfl
      have hbefore : (o.answered s result).calls.reverse ++ history
          = .exec s :: (o.calls.reverse ++ history) := by
        simp [Outcome.answered]
      rw [hrun]
      rcases ih (number + 1) (o.answered s result) with
        ⟨as, hss, hreplies, has⟩ | ⟨as, s', rest, reply, failure, hss, hreplies, hfailure, has⟩
      · refine .inl ⟨(s, result) :: as, by rw [hss]; rfl, ?_, ?_⟩
        · rw [hbefore] at hreplies
          simp only [execCalls, doneReplies, List.map_cons, replies, hreply] at hreplies ⊢
          rw [hreplies]
        · rw [has, Outcome.withAnswers_answered]
      · refine .inr ⟨(s, result) :: as, s', rest, reply, failure, by rw [hss]; rfl, ?_, ?_, ?_⟩
        · rw [hbefore] at hreplies
          simp only [execCalls, doneReplies, List.map_cons, List.cons_append, replies, hreply]
            at hreplies ⊢
          rw [hreplies]
        · rw [← hfailure, List.length_cons, Nat.add_assoc, Nat.add_comm 1]
          rfl
        · rw [has, Outcome.withAnswers_answered]
    | failed cause =>
      refine .inr ⟨[], s, ss, .failed cause, _, rfl, ?_, rfl, ?_⟩
      · simp [execCalls, doneReplies, replies, hreply]
      · simp [runAll, hreply, Outcome.withAnswers_nil]
    | panicked value =>
      refine .inr ⟨[], s, ss, .panicked value, _, rfl, ?_, rfl, ?_⟩
      · simp [execCalls, doneReplies, replies, hreply]
      · simp [runAll, hreply, Outcome.withAnswers_nil]

/-! ### Runs of texts -/

/-- How statements that are no batch are run. -/
def statementMode : List String → Mode
  | [_] => .single
  | _ => .sequence

theorem statementMode_ne_batch (ss : List String) :
  statementMode ss ≠ .batch
  := by
  unfold statementMode
  split <;> decide

theorem runStatements_eq (store : Store) (history : List StoreCall) {ss : List String}
    (hss : ss ≠ []) :
  runStatements store history ss
    = runAll store history ss.length 1 { mode := statementMode ss } ss
  := by
  match ss with
  | [] => cases hss rfl
  | [_] => rfl
  | _ :: _ :: _ => rfl

theorem statements_ne_nil_of_batch? {text : String} {found : Except BatchFault (List String)}
    (h : batch? text = some found) :
  statements text ≠ []
  := by
  intro hnil
  rw [statements, List.map_eq_nil_iff] at hnil
  rw [batch?, hnil] at h
  cases h

/-- What holds of the outcome of every text. -/
structure IsOrderly (store : Store) (history : List StoreCall) (text : String)
    (o : Outcome) : Prop where
  /-- A text that is a batch, well formed or not, is run as one. -/
  mode : o.mode = .batch ↔ (batch? text).isSome
  /-- There is no call, one for the batch, or one for each of the first statements. -/
  calls : o.calls = [] ∨ (∃ ss, batch? text = some (.ok ss) ∧ o.calls = [.batch ss])
    ∨ batch? text = none ∧ ∃ ss, ss <+: statements text ∧ o.calls = ss.map .exec
  /-- No call follows one that was not answered. -/
  stops : ∀ r ∈ (replies store history o.calls).dropLast, r.IsDone
  /-- As long as calls are answered, the next one is made. -/
  goes_on : (∀ r ∈ replies store history o.calls, r.IsDone) →
    (∀ ss, batch? text = some (.ok ss) → o.calls = [.batch ss])
      ∧ (batch? text = none → o.calls = (statements text).map .exec)
  /-- The statements of a batch are told as they are. -/
  batch : ∀ ss, batch? text = some (.ok ss) → o.statements = ss
  /-- Outside a batch the statements that were answered are told, with the result of the last. -/
  answered : o.mode ≠ .batch →
    o.statements = (answers o.calls (replies store history o.calls)).map Prod.fst
      ∧ o.result = (answers o.calls (replies store history o.calls)).getLast?.bind Prod.snd
  /-- A run succeeds if there is something to run, which is no malformed batch, and every call was
  answered. -/
  succeeds : o.failure? = none ↔ statements text ≠ []
    ∧ (∀ fault, batch? text ≠ some (.error fault))
    ∧ ∀ r ∈ replies store history o.calls, r.IsDone
  /-- A breakdown of the store is told as a failure. -/
  breakdown : ∀ value, .panicked value ∈ replies store history o.calls →
    o.failure? = some (panicFailure value)

variable {as : List Answer}

theorem isDone_of_mem_doneReplies (h : r ∈ doneReplies as) :
  r.IsDone
  := by
  obtain ⟨a, -, rfl⟩ := List.mem_map.mp h
  exact ⟨a.2, rfl⟩

section

variable {store : Store} {history : List StoreCall} {text : String}

theorem isOrderly_malformed {fault : BatchFault} (hbatch : batch? text = some (.error fault)) :
  IsOrderly store history text { mode := .batch, failure? := some fault.failure }
  where
  mode := by simp [hbatch]
  calls := .inl rfl
  stops _ hr := by cases hr
  goes_on _ := by simp [hbatch]
  batch := by simp [hbatch]
  answered hmode := by cases hmode rfl
  succeeds := by simp [hbatch]
  breakdown _ hvalue := by cases hvalue

theorem isOrderly_nothing (hbatch : batch? text = none) (hnone : statements text = [])
    (failure : Failure) :
  IsOrderly store history text { mode := .single, failure? := some failure }
  where
  mode := by simp [hbatch]
  calls := .inl rfl
  stops _ hr := by cases hr
  goes_on _ := by simp [hbatch, hnone]
  batch := by simp [hbatch]
  answered _ := ⟨rfl, rfl⟩
  succeeds := by simp [hnone]
  breakdown _ hvalue := by cases hvalue

theorem runBatch_eq (store : Store) (history : List StoreCall) (ss : List String) :
  runBatch store history ss
    = { mode := .batch, statements := ss, calls := [.batch ss]
        failure? := (store history (.batch ss)).failureBy .execution }
  := by
  unfold runBatch
  cases store history (.batch ss) <;> rfl

theorem isOrderly_runBatch {ss : List String} (hbatch : batch? text = some (.ok ss)) :
  IsOrderly store history text (runBatch store history ss)
  := by
  rw [runBatch_eq]
  have hreplies : replies store history [.batch ss] = [store history (.batch ss)] := rfl
  constructor
  case mode => simp [hbatch]
  case calls => exact .inr (.inl ⟨ss, hbatch, rfl⟩)
  case stops => simp [hreplies]
  case goes_on => simp [hbatch]
  case batch => simp [hbatch]
  case answered =>
    intro hmode
    cases hmode rfl
  case succeeds =>
    simp [hreplies, StoreReply.failureBy_eq_none, statements_ne_nil_of_batch? hbatch, hbatch]
  case breakdown =>
    intro value hvalue
    rw [hreplies, List.mem_singleton] at hvalue
    rw [← hvalue]
    rfl

theorem execCalls_eq (as : List Answer) :
  execCalls as = (as.map Prod.fst).map .exec
  := by
  rw [execCalls, List.map_map]
  rfl

theorem result_withAnswers (mode : Mode) (as : List Answer) :
  (Outcome.withAnswers { mode := mode } as).result = as.getLast?.bind Prod.snd
  := by
  unfold Outcome.withAnswers
  cases as.getLast? <;> rfl

theorem isOrderly_answered (hbatch : batch? text = none) (hsome : statements text ≠ [])
    {mode : Mode} (hmode : mode ≠ .batch) (has : statements text = as.map Prod.fst)
    (hreplies : replies store history (execCalls as) = doneReplies as) :
  IsOrderly store history text (Outcome.withAnswers { mode := mode } as)
  := by
  have hcalls : (Outcome.withAnswers { mode := mode } as).calls = execCalls as := rfl
  have hstatements : (Outcome.withAnswers { mode := mode } as).statements = as.map Prod.fst := rfl
  have hdone : ∀ r ∈ doneReplies as, r.IsDone := fun _ => isDone_of_mem_doneReplies
  constructor
  case mode => simpa [hbatch, Outcome.withAnswers] using hmode
  case calls =>
    refine .inr (.inr ⟨hbatch, as.map Prod.fst, has ▸ List.prefix_rfl, ?_⟩)
    rw [hcalls, execCalls_eq]
  case stops =>
    rw [hcalls, hreplies]
    exact fun r hr => hdone r (List.dropLast_subset _ hr)
  case goes_on => simp [hbatch, hcalls, execCalls_eq, has]
  case batch => simp [hbatch]
  case answered =>
    intro _
    have hanswers : answers (execCalls as) (doneReplies as) = as := by
      simpa [answers] using answers_append as [] []
    rw [hcalls, hreplies, hanswers]
    exact ⟨hstatements, result_withAnswers mode as⟩
  case succeeds =>
    rw [hcalls, hreplies]
    exact ⟨fun _ => ⟨hsome, by simp [hbatch], hdone⟩, fun _ => rfl⟩
  case breakdown =>
    intro value hvalue
    rw [hcalls, hreplies] at hvalue
    obtain ⟨_, h⟩ := hdone _ hvalue
    cases h

theorem isOrderly_ended (hbatch : batch? text = none) {mode : Mode} (hmode : mode ≠ .batch)
    {s : String} {rest : List String} {reply : StoreReply} {failure : Failure}
    {describe : Failure → Failure} (has : statements text = as.map Prod.fst ++ s :: rest)
    (hreplies : replies store history (execCalls as ++ [.exec s]) = doneReplies as ++ [reply])
    (hfailure : reply.failureBy describe = some failure) :
  IsOrderly store history text
    { Outcome.withAnswers { mode := mode } as with
      calls := (Outcome.withAnswers { mode := mode } as).calls ++ [.exec s]
      failure? := some failure }
  := by
  have hcalls : (Outcome.withAnswers { mode := mode } as).calls = execCalls as := rfl
  have hdone : ∀ r ∈ doneReplies as, r.IsDone := fun _ => isDone_of_mem_doneReplies
  have hreply : ¬ reply.IsDone := by
    rw [← StoreReply.failureBy_eq_none, hfailure]
    exact Option.some_ne_none failure
  rw [hcalls]
  constructor
  case mode => simpa [hbatch, Outcome.withAnswers] using hmode
  case calls =>
    refine .inr (.inr ⟨hbatch, as.map Prod.fst ++ [s], ⟨rest, by simp [has]⟩, ?_⟩)
    rw [execCalls_eq, List.map_append]
    rfl
  case stops =>
    rw [hreplies, List.dropLast_concat]
    exact hdone
  case goes_on =>
    intro h
    rw [hreplies] at h
    cases hreply (h reply (by simp))
  case batch => simp [hbatch]
  case answered =>
    intro _
    have hanswers : answers (execCalls as ++ [.exec s]) (doneReplies as ++ [reply]) = as := by
      rw [answers_append, answers_of_not_isDone hreply, List.append_nil]
    rw [hreplies, hanswers]
    exact ⟨rfl, result_withAnswers mode as⟩
  case succeeds =>
    rw [hreplies]
    constructor
    · intro h
      cases h
    · rintro ⟨-, -, h⟩
      cases hreply (h reply (by simp))
  case breakdown =>
    intro value hvalue
    rw [hreplies, List.mem_append, List.mem_singleton] at hvalue
    rcases hvalue with hvalue | rfl
    · obtain ⟨_, h⟩ := hdone _ hvalue
      cases h
    · rw [← hfailure]
      rfl

end

theorem isOrderly_execute (store : Store) (history : List StoreCall) (text : String) :
  IsOrderly store history text (execute store history text)
  := by
  unfold execute
  split
  next fault hbatch => exact isOrderly_malformed hbatch
  next ss hbatch => exact isOrderly_runBatch hbatch
  next hbatch =>
    by_cases hsome : statements text = []
    · rw [hsome]
      exact isOrderly_nothing hbatch hsome _
    · rw [runStatements_eq store history hsome]
      have hmode := statementMode_ne_batch (statements text)
      rcases runAll_cases store history (statements text).length 1
        { mode := statementMode (statements text) } (statements text) with
        ⟨as, has, hreplies, hrun⟩ | ⟨as, s, rest, reply, failure, has, hreplies, hfailure, hrun⟩
      · rw [hrun]
        exact isOrderly_answered hbatch hsome hmode has hreplies
      · rw [hrun]
        exact isOrderly_ended hbatch hmode has hreplies hfailure

/-! ### Hooks -/

variable {σ : Type}

/-- Whether a hook never breaks down. -/
def Hook.IsSteady (hook : Hook σ) : Prop :=
  ∀ event state, ∃ next, hook event state = .done next

/-- Hooks are told of an event one after another, each once, and lead from one state to another. -/
inductive Told (event : Event) : List (Hook σ) → σ → σ → Prop
  | nil (state : σ) : Told event [] state state
  | cons {hook : Hook σ} {hooks : List (Hook σ)} {state next last : σ}
      (hhook : hook event state = .done next) (hhooks : Told event hooks next last) :
      Told event (hook :: hooks) state last

theorem told_tellAll (event : Event) {hooks : List (Hook σ)} (h : ∀ hook ∈ hooks, hook.IsSteady)
    (state : σ) :
  (tellAll event hooks state).2 = none ∧ Told event hooks state (tellAll event hooks state).1
  := by
  induction hooks generalizing state with
  | nil => exact ⟨rfl, .nil state⟩
  | cons hook hooks ih =>
    rw [List.forall_mem_cons] at h
    obtain ⟨next, hnext⟩ := h.1 event state
    obtain ⟨hpanic, htold⟩ := ih h.2 next
    simp only [tellAll, hnext]
    exact ⟨hpanic, .cons hnext htold⟩

namespace Coordinator

theorem execute_of_success (c : Coordinator σ) {history : List StoreCall} (caller : Caller)
    (state : σ) {text : String} (h : (Execution.execute c.store history text).failure? = none) :
  c.execute history caller state text
    = ⟨Execution.execute c.store history text,
      (tellAll ⟨text, (Execution.execute c.store history text).statements,
        (Execution.execute c.store history text).mode, caller⟩ c.hooks state).1,
      (tellAll ⟨text, (Execution.execute c.store history text).statements,
        (Execution.execute c.store history text).mode, caller⟩ c.hooks state).2⟩
  := if_pos (by simp [Outcome.success, h])

theorem execute_of_failure (c : Coordinator σ) {history : List StoreCall} (caller : Caller)
    (state : σ) {text : String} (h : (Execution.execute c.store history text).failure? ≠ none) :
  c.execute history caller state text = ⟨Execution.execute c.store history text, state, none⟩
  := if_neg (by simpa [Outcome.success] using h)

/-- Whatever the text and the replies of the store, a run is orderly, no breakdown of the store
comes through, and the hooks, if none of them breaks down, are told of the statements of the outcome
one after another exactly if the run did not fail. -/
theorem execute_isOrderly (c : Coordinator σ) (history : List StoreCall) (caller : Caller)
    (state : σ) (text : String) (hhooks : ∀ hook ∈ c.hooks, hook.IsSteady) :
  IsOrderly c.store history text (c.execute history caller state text).outcome
    ∧ (c.execute history caller state text).panic? = none
    ∧ ((c.execute history caller state text).outcome.failure? = none →
      Told ⟨text, (c.execute history caller state text).outcome.statements,
        (c.execute history caller state text).outcome.mode, caller⟩ c.hooks state
        (c.execute history caller state text).state)
    ∧ ((c.execute history caller state text).outcome.failure? ≠ none →
      (c.execute history caller state text).state = state)
  := by
  have horderly := isOrderly_execute c.store history text
  by_cases h : (Execution.execute c.store history text).failure? = none
  · rw [c.execute_of_success caller state h]
    obtain ⟨hpanic, htold⟩ := told_tellAll _ hhooks state
    exact ⟨horderly, hpanic, fun _ => htold, fun hfailure => (hfailure h).elim⟩
  · rw [c.execute_of_failure caller state h]
    exact ⟨horderly, rfl, fun hnone => (h hnone).elim, fun _ => rfl⟩

end Coordinator

/-- A store that breaks down at the second of three statements, and a hook that counts. -/
def brittleCoordinator : Coordinator Nat where
  store _ call := if call = .exec "b" then .panicked "lost" else .done none
  hooks := [fun _ count => .done (count + 1)]

theorem Coordinator.execute_isOrderly_brittle :
  (∀ hook ∈ brittleCoordinator.hooks, hook.IsSteady)
    ∧ (brittleCoordinator.execute [] {} 0 "a; b; c").outcome.statements = ["a"]
    ∧ (brittleCoordinator.execute [] {} 0 "a; b; c").outcome.failure? = some (panicFailure "lost")
    ∧ (brittleCoordinator.execute [] {} 0 "a; b; c").state = 0
  := by
  have hhooks : ∀ hook ∈ brittleCoordinator.hooks, hook.IsSteady := by
    intro hook hhook event count
    rw [List.mem_singleton.mp hhook]
    exact ⟨count + 1, rfl⟩
  have hcalls : (brittleCoordinator.execute [] {} 0 "a; b; c").outcome.calls
      = [.exec "a", .exec "b"] := by
    decide
  obtain ⟨horderly, -, -, hstate⟩ := brittleCoordinator.execute_isOrderly [] {} 0 "a; b; c" hhooks
  have hanswered := horderly.answered (by decide)
  have hbreakdown := horderly.breakdown "lost" (by rw [hcalls]; simp [replies, brittleCoordinator])
  refine ⟨hhooks, ?_, hbreakdown, hstate ?_⟩
  · rw [hanswered.1, hcalls]
    rfl
  · rw [hbreakdown]
    exact Option.some_ne_none _

end CqlGateway.Execution

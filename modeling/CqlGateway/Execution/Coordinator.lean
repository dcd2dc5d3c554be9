import CqlGateway.Execution.Batch
import CqlGateway.Execution.KeyspaceChange
import CqlGateway.Json.Basic
import CqlGateway.Metrics

/-!
# Running texts against a store

A text is run as a batch if it is one, and statement by statement otherwise, up to the first
statement that fails. A store may answer, fail or break down; its answer to a call may depend on
all calls before. What is left of a breakdown is a failure like any other.

After a run that succeeded, hooks are told of it in the order in which they were registered. One of
them notifies the keyspaces that were created or dropped on behalf of the caller, if the caller is
known.
-/

namespace CqlGateway.Execution

/-- The rows that a statement returned; a cell is known by the name of its column. -/
structure ResultSet where
  columns : List String := []
  rows : List (List (String × Json)) := []

inductive StoreCall where
  | exec (statement : String)
  | batch (statements : List String)
  deriving DecidableEq, Repr

inductive StoreReply where
  /-- The call succeeded; a statement need not have a result. -/
  | done (result : Option ResultSet)
  | failed (cause : Failure)
  /-- The store broke down. -/
  | panicked (value : String)

/-- A store: the answer to a call, given the calls before it, the last one in front. -/
abbrev Store := List StoreCall → StoreCall → StoreReply

/-- Who asks for an execution. -/
structure Caller where
  subject : String := ""
  credential : String := ""
  deriving DecidableEq, Repr

inductive Mode where
  | single
  | batch
  | sequence
  deriving DecidableEq, Repr

def Mode.name : Mode → String
  | .single => "single"
  | .batch => "batch"
  | .sequence => "sequence"

structure Outcome where
  mode : Mode
  /-- The statements of a batch, or the statements that succeeded. -/
  statements : List String := []
  /-- The result of the last statement that succeeded outside a batch. -/
  result : Option ResultSet := none
  failure? : Option Failure := none
  /-- The calls of the store that were made, in order. -/
  calls : List StoreCall := []

/-- Whether all went well. -/
def Outcome.success (o : Outcome) : Bool :=
  o.failure?.isNone

/-- A breakdown of the store as a failure. -/
def panicFailure (value : String) : Failure :=
  .execution (.plain ("store panicked: " ++ value))

/-- The failure of the statement of the given number, of so many. -/
def statementFailure (mode : Mode) (number total : Nat) (cause : Failure) : Failure :=
  .execution (
    if mode = .sequence then
      .wrapped ("statement " ++ toString number ++ " of " ++ toString total) cause
    else
      cause)

/-- Run statements one by one. The outcome so far says what has been run already, and `number` is
that of the next statement. -/
def runAll (store : Store) (history : List StoreCall) (total : Nat) (number : Nat) (o : Outcome) :
    List String → Outcome
  | [] => o
  | s :: rest =>
    let called := { o with calls := o.calls ++ [StoreCall.exec s] }
    match store (o.calls.reverse ++ history) (.exec s) with
    | .panicked value => { called with failure? := some (panicFailure value) }
    | .failed cause =>
      { called with failure? := some (statementFailure o.mode number total cause) }
    | .done result =>
      runAll store history total (number + 1)
        { called with statements := o.statements ++ [s], result := result } rest

def runBatch (store : Store) (history : List StoreCall) (statements : List String) : Outcome :=
  let o : Outcome :=
    { mode := .batch, statements := statements, calls := [.batch statements] }
  match store history (.batch statements) with
  | .panicked value => { o with failure? := some (panicFailure value) }
  | .failed cause => { o with failure? := some (.execution cause) }
  | .done _ => o

/-- Run the statements of a text that is no batch. -/
def runStatements (store : Store) (history : List StoreCall) : List String → Outcome
  | [] => { mode := .single, failure? := some (.invalid "nothing to execute") }
  | [s] => runAll store history 1 1 { mode := .single } [s]
  | ss => runAll store history ss.length 1 { mode := .sequence } ss

/-- Run a text, given the calls of the store before, the last one in front. -/
def execute (store : Store) (history : List StoreCall) (text : String) : Outcome :=
  match batch? text with
  | some (.error fault) => { mode := .batch, failure? := some fault.failure }
  | some (.ok ss) => runBatch store history ss
  | none => runStatements store history (statements text)

/-! ### Hooks -/

/-- What hooks are told of a run that succeeded. -/
structure Event where
  text : String
  statements : List String
  mode : Mode
  caller : Caller
  deriving DecidableEq, Repr

/-- What a hook leaves of the state that the hooks share. -/
inductive HookReply (σ : Type) where
  | done (state : σ)
  /-- The hook broke down. -/
  | panicked (state : σ) (value : String)

/-- A hook: what it makes of an event, given what the hooks before it have left. -/
abbrev Hook (σ : Type) := Event → σ → HookReply σ

/-- What hooks leave when they are told of an event one after another, and the value with which one
of them broke down. The hooks behind that one are not told. -/
def tellAll {σ : Type} (event : Event) : List (Hook σ) → σ → σ × Option String
  | [], state => (state, none)
  | hook :: hooks, state =>
    match hook event state with
    | .done state => tellAll event hooks state
    | .panicked state value => (state, some value)

/-- A store together with the hooks that are told of its runs, in the order in which they were
registered. -/
structure Coordinator (σ : Type) where
  store : Store
  hooks : List (Hook σ) := []

/-- What has come of a text, what the hooks have left, and the value with which one of them broke
down. -/
structure Executed (σ : Type) where
  outcome : Outcome
  state : σ
  panic? : Option String := none

namespace Coordinator

variable {σ : Type}

def addHook (c : Coordinator σ) (hook : Hook σ) : Coordinator σ :=
  { c with hooks := c.hooks ++ [hook] }

/-- Run a text on behalf of a caller and tell the hooks if all went well. -/
def execute (c : Coordinator σ) (history : List StoreCall) (caller : Caller) (state : σ)
    (text : String) : Executed σ :=
  let o := Execution.execute c.store history text
  if o.success then
    let (state, panic?) := tellAll ⟨text, o.statements, o.mode, caller⟩ c.hooks state
    ⟨o, state, panic?⟩
  else
    ⟨o, state, none⟩

end Coordinator

/-! ### Notifications -/

/-- A message to the authority that a keyspace was created or dropped on behalf of a caller. -/
structure Notification where
  caller : Caller
  change : KeyspaceChange
  deriving DecidableEq, Repr

/-- The notifications that statements give rise to. There are none without a known caller. -/
def notificationsOf (caller : Caller) (statements : List String) : List Notification :=
  if caller.subject = "" || caller.credential = "" then []
  else (statements.filterMap keyspaceChange?).map fun change => ⟨caller, change⟩

/-- The hook that notifies changes of keyspaces; `record` says how notifications are kept. -/
def keyspaceHook {σ : Type} (record : List Notification → σ → σ) : Hook σ :=
  fun event state => .done (record (notificationsOf event.caller event.statements) state)

def Outcome.notifications (o : Outcome) (caller : Caller) : List Notification :=
  if o.success then notificationsOf caller o.statements else []

/-- Count a run and its notifications, given which notifications succeed. -/
def Outcome.observe (o : Outcome) (caller : Caller) (delivered : Notification → Bool)
    (m : Metrics) : Metrics :=
  (o.notifications caller).foldl
    (fun m n => m.observeNotification n.change.action.name (delivered n))
    (m.observeExecution o.mode.name o.success)

end CqlGateway.Execution

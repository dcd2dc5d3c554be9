import CqlGateway.Proofs.Execution.Confinement
import CqlGateway.Proofs.Service.Mediation
import CqlGateway.Proofs.Statement.Document

/-!
# Requests confined to an operation

The guard is asked about the operation of a statement, and the store runs the statements that the
text of its rendering is split into. If the texts that the rendering copies are closed, the store
sees nothing but the permitted operation: each statement that it is handed begins with the verb. The
texts that are copied are the spellings of numbers, the names of functions and parameters, and the
replication strategy; whatever stands in other names and in literals makes no difference.

A document may spell a number by a text that is not closed. Then the store is handed statements of
other operations.
-/

namespace CqlGateway

open Execution

/-- A visit whose statement copies only closed texts. -/
def Visit.CopiesClosed (v : Visit) : Prop :=
  ∀ a s, v.service.attempt v.request.subject = .ok a → a.statement? = some s →
    ∀ t ∈ s.copiedTexts v.service.options, Closed true t.toList

theorem Service.outcome_of_attempt {service : Service} {subject : Subject} {a : Attempt}
    {s : Statement} (ha : service.attempt subject = .ok a) (hs : a.statement? = some s) :
  a.outcome = s.render service.options
  := by
  rcases attempt_cases ha with ⟨s', rfl⟩ | ⟨hnone, -⟩
  · cases hs
    rfl
  · cases hnone.symm.trans hs

/-- What a cleared visit hands to the store begins with the verb of the operation that the guard is
asked about. -/
theorem Visit.IsCleared.beginsWith {v : Visit} {state : ServiceState} {s : Statement} {r : Rendering}
    {store : Store} (h : v.IsCleared state s r store) (hclosed : v.CopiesClosed) :
  ∀ call ∈ (execute store state.history r.text).calls, call.BeginsWith s.operation.verb
  := by
  obtain ⟨a, ha, hs, hr⟩ := h.rendered
  have hrender : s.render v.service.options = .ok r := by
    rw [← Service.outcome_of_attempt ha hs, hr]
  apply beginsWith_of_closed (hclosed a s ha hs) ⟨r, hrender, rfl⟩

namespace ServiceState

theorem mem_of_mem_visited {state : ServiceState} {visits : List Visit} {p : ServiceState × Visit}
    (h : p ∈ state.visited visits) :
  p.2 ∈ visits
  := by
  induction visits generalizing state with
  | nil => cases h
  | cons v visits ih =>
    rcases List.mem_cons.mp h with rfl | h
    · exact List.mem_cons_self
    · exact List.mem_cons_of_mem v (ih h)

/-- In every run of visits whose statements copy only closed texts, each call of the store comes
from a cleared visit, and its statements begin with the verb of the operation that the guard was
asked about. -/
theorem calls_confined
    (state : ServiceState) (visits : List Visit) (hclosed : ∀ v ∈ visits, v.CopiesClosed) :
  ∀ call ∈ (state.after visits).history, call ∈ state.history
    ∨ ∃ p ∈ state.visited visits, ∃ s r store, p.2.IsCleared p.1 s r store
      ∧ call ∈ (execute store p.1.history r.text).calls ∧ call.BeginsWith s.operation.verb
  := by
  intro call hcall
  rcases mem_history_after hcall with h | ⟨p, hp, s, r, store, hcleared, h⟩
  · exact .inl h
  · have hbegins := hcleared.beginsWith (hclosed p.2 (mem_of_mem_visited hp))
    exact .inr ⟨p, hp, s, r, store, hcleared, h, hbegins call h⟩

theorem after_singleton (state : ServiceState) (v : Visit) :
  state.after [v] = (v.handled state).state
  := rfl

/-- A state in which nothing has happened yet. -/
def fresh : ServiceState :=
  { cache := .ofSettings 0 0 }

end ServiceState

/-- A request of a caller who may run the given operations, to a service with a store that accepts
everything. -/
def Visit.granted (operations : List String) (subject : Subject) : Visit where
  service :=
    { guard? := some { fetcher := fun _ _ => .ok operations }
      store? := some fun _ _ => .done none }
  moment := ⟨0, 0⟩
  delivered := fun _ => true
  request := { subject := subject, execute := true, caller := ⟨"mallory", "token"⟩ }

/-- A text that is no command gives the statement that its document describes. -/
theorem Visit.attempt_granted {t : String} {s : Statement} (operations : List String)
    (hcommand : Command.describe? t = none) (hs : Statement.ofText t = .ok s) :
  (Visit.granted operations (.text t)).service.attempt (.text t) = .ok (.ofStatement {} s)
  := by
  have hparsed : documentParser t = .parsed s := by
    delta documentParser
    simp only [hs]
  unfold Service.attempt Attempt.ofText Attempt.ofParser
  simp only [hcommand, Visit.granted, hparsed]

theorem Visit.history_granted {operations : List String} {subject : Subject} {s : Statement}
    {r : Rendering}
    (ha : (Visit.granted operations subject).service.attempt subject = .ok (.ofStatement {} s))
    (hr : s.render {} = .ok r)
    (hpermitted : ServiceState.fresh.cache.hasPermission (fun _ _ => .ok operations) 0 0 "mallory"
      s.operation.name "token" = true) :
  ((Visit.granted operations subject).handled .fresh).state.history
    = (execute (fun _ _ => .done none) [] r.text).calls.reverse
  := by
  have hcleared : (Visit.granted operations subject).IsCleared .fresh s r fun _ _ => .done none :=
    { asked := rfl
      rendered := ⟨_, ha, rfl, hr⟩
      store_eq := rfl
      known := by simp [Visit.granted]
      permitted := ⟨_, rfl, hpermitted⟩ }
  rcases (Visit.granted operations subject).isMediated .fresh with h | ⟨h, -⟩
  · obtain ⟨s', r', store, hcleared', hexecuted⟩ := h
    obtain ⟨a, ha', -, hr'⟩ := hcleared'.rendered
    cases ha.symm.trans ha'
    cases hr.symm.trans hr'
    cases hcleared'.store_eq
    rw [hexecuted.1]
    exact List.append_nil _
  · exact (h ⟨s, r, _, hcleared⟩).elim

/-- A query that compares with a text, in which a statement is spelled. -/
def quotedDrop : Statement :=
  .select
    { Select.blank with
      sources := some [{ TableRef.blank with table := { name := "t" } }]
      filter := .eq (.column "id") (.text "1'; DROP TABLE users; --") }

theorem copiesClosed_quotedDrop :
  (Visit.granted ["select"] (.statement quotedDrop)).CopiesClosed
  := by
  intro a s ha hs t ht
  cases ha
  cases hs
  cases ht

theorem history_quotedDrop :
  (ServiceState.fresh.after [Visit.granted ["select"] (.statement quotedDrop)]).history
    = [.exec "SELECT * FROM t WHERE id = '1''; DROP TABLE users; --' LIMIT 100"]
  := by
  have hrender : quotedDrop.render {}
      = .ok ⟨"SELECT * FROM t WHERE id = '1''; DROP TABLE users; --' LIMIT 100", []⟩ := rfl
  rw [ServiceState.after_singleton, Visit.history_granted rfl hrender (by decide)]
  decide

theorem ServiceState.calls_confined_quotedDrop :
  (Visit.granted ["select"] (.statement quotedDrop)).CopiesClosed
    ∧ ServiceState.fresh.history = []
    ∧ .exec "SELECT * FROM t WHERE id = '1''; DROP TABLE users; --' LIMIT 100"
      ∈ (ServiceState.fresh.after [Visit.granted ["select"] (.statement quotedDrop)]).history
    ∧ ∃ p ∈ ServiceState.fresh.visited [Visit.granted ["select"] (.statement quotedDrop)],
      ∃ s r store, p.2.IsCleared p.1 s r store
        ∧ .exec "SELECT * FROM t WHERE id = '1''; DROP TABLE users; --' LIMIT 100"
          ∈ (execute store p.1.history r.text).calls
        ∧ StoreCall.BeginsWith s.operation.verb
          (.exec "SELECT * FROM t WHERE id = '1''; DROP TABLE users; --' LIMIT 100")
  := by
  have hcall := List.mem_singleton_self
    (StoreCall.exec "SELECT * FROM t WHERE id = '1''; DROP TABLE users; --' LIMIT 100")
  rw [← history_quotedDrop] at hcall
  have hclosed : ∀ v ∈ [Visit.granted ["select"] (.statement quotedDrop)], v.CopiesClosed := by
    rw [List.forall_mem_singleton]
    exact copiesClosed_quotedDrop
  refine ⟨copiesClosed_quotedDrop, rfl, hcall, ?_⟩
  rcases ServiceState.calls_confined ServiceState.fresh _ hclosed _ hcall with h | h
  · cases h
  · exact h

/-! ### A number that is none -/

/-- A query that compares with a number, which is spelled by a text that is no number. -/
def smuggledDrop : List (String × Json) :=
  [("kind", .text "select"), ("from", .array [.object [("name", .text "t")]]),
   ("where", .object
     [("type", .text "binary_expr"), ("operator", .text "="),
      ("left", .object [("type", .text "column_ref"), ("column", .text "id")]),
      ("right", .object
        [("type", .text "number"), ("value", .text "1; DROP TABLE users; SELECT 1")])])]

theorem ofText_smuggledDrop :
  ∃ s, Statement.ofText (Json.object smuggledDrop).write = .ok s ∧ s.operation = .select
    ∧ s.render {} = .ok ⟨"SELECT * FROM t WHERE id = 1; DROP TABLE users; SELECT 1 LIMIT 100", []⟩
  := by
  have hspelled : (Json.object smuggledDrop).IsSpelled := by
    simp [smuggledDrop, Json.isSpelled_object_iff, Json.isSpelled_array_iff, Json.IsSpelled.text]
  have hdocument := Statement.documentOf_write hspelled (by decide)
  obtain ⟨s, hs⟩ : ∃ s, Statement.ofNode (.ofJson (.object smuggledDrop)) = .ok s := ⟨_, rfl⟩
  refine ⟨s, ?_, ?_⟩
  · rw [Statement.ofText, hdocument]
    exact hs
  · cases hs
    exact ⟨rfl, rfl⟩

/-- A caller who may only run queries makes the store drop a table. -/
theorem history_smuggledDrop :
  (∃ s, Statement.ofText (Json.object smuggledDrop).write = .ok s ∧ s.operation = .select)
    ∧ .exec "DROP TABLE users"
      ∈ ((Visit.granted ["select"] (.text (Json.object smuggledDrop).write)).handled
        .fresh).state.history
  := by
  obtain ⟨s, hs, hoperation, hrender⟩ := ofText_smuggledDrop
  have hattempt : (Visit.granted ["select"] (.text (Json.object smuggledDrop).write)).service.attempt
      (.text (Json.object smuggledDrop).write) = .ok (.ofStatement {} s) := by
    apply Visit.attempt_granted ["select"] (Command.describe?_write smuggledDrop) hs
  have hpermitted : ServiceState.fresh.cache.hasPermission (fun _ _ => .ok ["select"]) 0 0 "mallory"
      s.operation.name "token" = true := by
    rw [hoperation]
    decide
  rw [Visit.history_granted hattempt hrender hpermitted]
  exact ⟨⟨s, hs, hoperation⟩, by decide⟩

end CqlGateway

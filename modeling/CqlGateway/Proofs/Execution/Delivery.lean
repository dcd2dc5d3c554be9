import CqlGateway.Proofs.Execution.Running
import CqlGateway.Proofs.Permission.Spelling

/-!
# Notifications on their way to the authority

A run that creates or drops keyspaces on behalf of a caller sends a notification for each of them.
Nothing orders the notifications: each of them reaches the authority some time after the run,
whatever was sent before or behind it. Main statement: the order does not matter for a keyspace of
a subject exactly if the notifications about it that are on their way all ask for what was asked
for last, or if there are none and the record is right already. That is so if no two notifications
with opposite actions on the keyspace were on their way at the same time.
-/

namespace CqlGateway

/-- Whether the authority records a keyspace for a subject. -/
def Permission.Grants.records (g : Grants) (subject keyspace : String) : Bool :=
  match g.keyspacesOf subject with
  | .ok keyspaces => keyspaces.contains keyspace
  | .error _ => false

namespace Execution

open Permission (Grants Grant GrantTable)

variable {caller : Caller}

/-- A caller that is told apart from others. -/
def Caller.IsKnown (c : Caller) : Prop :=
  c.subject ≠ "" ∧ c.credential ≠ ""

/-! ### Sending and delivering -/

/-- Tell the authority of a change. -/
def Notification.deliver (n : Notification) (g : Grants) : Except Failure Grants :=
  match n.change.action with
  | .add => g.addKeyspace n.caller.subject n.change.keyspace
  | .remove => g.removeKeyspace n.caller.subject n.change.keyspace

/-- What has been run so far, and what of it has reached the authority. -/
structure Traffic where
  /-- The calls of the store, the last one in front. -/
  history : List StoreCall := []
  /-- The statements that were run, in order, and on whose behalf. -/
  executed : List (Caller × String) := []
  /-- The notifications on their way. -/
  inFlight : List Notification := []
  grants : Grants := {}

/-- What may happen next. -/
inductive Move where
  | execute (caller : Caller) (text : String)
  | deliver (n : Notification)

/-- Whether what is run is run on behalf of a known caller. -/
def Move.IsKnown : Move → Prop
  | .execute caller _ => caller.IsKnown
  | .deliver _ => True

namespace Traffic

/-- A text is run and succeeds, and the notifications are sent. -/
def execute? (store : Store) (t : Traffic) (caller : Caller) (text : String) : Option Traffic :=
  let done := Coordinator.execute ⟨store, [keyspaceHook fun ns sent => sent ++ ns]⟩ t.history caller
    t.inFlight text
  if done.outcome.success then
    some { t with
      history := done.outcome.calls.reverse ++ t.history
      executed := t.executed ++ done.outcome.statements.map (caller, ·)
      inFlight := done.state }
  else
    none

/-- A notification on its way reaches the authority and is accepted. -/
def deliver? (t : Traffic) (n : Notification) : Option Traffic :=
  if n ∈ t.inFlight then
    match n.deliver t.grants with
    | .ok grants => some { t with inFlight := t.inFlight.erase n, grants := grants }
    | .error _ => none
  else
    none

/-- The next state. -/
def move? (store : Store) (t : Traffic) : Move → Option Traffic
  | .execute caller text => t.execute? store caller text
  | .deliver n => t.deliver? n

/-- The state after moves one after another. -/
def run? (store : Store) (t : Traffic) (moves : List Move) : Option Traffic :=
  moves.foldlM (move? store) t

end Traffic

/-- Whether a notification is about a keyspace of a subject. -/
def Notification.IsOn (n : Notification) (subject keyspace : String) : Prop :=
  n.caller.subject = subject ∧ n.change.keyspace = keyspace
  deriving Decidable

/-- What notifications ask for a keyspace of a subject, in order. -/
def actionsOn (subject keyspace : String) (ns : List Notification) : List KeyspaceAction :=
  (ns.filter (·.IsOn subject keyspace)).map (·.change.action)

/-- The notifications that statements call for. -/
def requests (executed : List (Caller × String)) : List Notification :=
  executed.filterMap fun (caller, statement) =>
    (keyspaceChange? statement).map fun change => ⟨caller, change⟩

namespace Traffic

/-- What the notifications on their way ask for a keyspace of a subject. -/
def pending (t : Traffic) (subject keyspace : String) : List KeyspaceAction :=
  actionsOn subject keyspace t.inFlight

/-- What the last statement of a subject on a keyspace has done. -/
def last? (t : Traffic) (subject keyspace : String) : Option KeyspaceAction :=
  (actionsOn subject keyspace (requests t.executed)).getLast?

/-- A keyspace is recorded for a subject exactly if the last statement of the subject on it has
created it. -/
def IsRight (t : Traffic) (subject keyspace : String) : Prop :=
  t.grants.records subject keyspace = true ↔ t.last? subject keyspace = some .add
  deriving Decidable

/-- What is on its way about a keyspace of a subject is what was asked for last, or nothing, and
the record is right. -/
def Settles (t : Traffic) (subject keyspace : String) : Prop :=
  (∀ a ∈ t.pending subject keyspace, t.last? subject keyspace = some a)
    ∧ (t.pending subject keyspace = [] → t.IsRight subject keyspace)
  deriving Decidable

/-- No two notifications with opposite actions on a keyspace of a subject are on their way. -/
def Uncrossed (t : Traffic) (subject keyspace : String) : Prop :=
  ∀ a ∈ t.pending subject keyspace, ∀ b ∈ t.pending subject keyspace, a = b

end Traffic

/-! ### What notifications ask for -/

section Actions

variable {n : Notification} {ns ms : List Notification} {subject keyspace : String}

theorem mem_actionsOn {a : KeyspaceAction} :
  a ∈ actionsOn subject keyspace ns
    ↔ ∃ n ∈ ns, n.IsOn subject keyspace ∧ n.change.action = a
  := by
  simp [actionsOn, and_assoc]

theorem actionsOn_append :
  actionsOn subject keyspace (ns ++ ms)
    = actionsOn subject keyspace ns ++ actionsOn subject keyspace ms
  := by
  rw [actionsOn, List.filter_append, List.map_append]
  rfl

theorem actionsOn_cons_of_isOn (h : n.IsOn subject keyspace) :
  actionsOn subject keyspace (n :: ns) = n.change.action :: actionsOn subject keyspace ns
  := by
  rw [actionsOn, List.filter_cons_of_pos (by simpa using h)]
  rfl

theorem actionsOn_cons_of_not_isOn (h : ¬ n.IsOn subject keyspace) :
  actionsOn subject keyspace (n :: ns) = actionsOn subject keyspace ns
  := by
  rw [actionsOn, List.filter_cons_of_neg (by simpa using h)]
  rfl

theorem actionsOn_erase (h : ¬ n.IsOn subject keyspace) :
  actionsOn subject keyspace (ns.erase n) = actionsOn subject keyspace ns
  := by
  induction ns with
  | nil => rfl
  | cons m ns ih =>
    by_cases hm : m = n
    · rw [hm, List.erase_cons_head, actionsOn_cons_of_not_isOn h]
    · rw [List.erase_cons_tail (by simpa using hm)]
      by_cases hon : m.IsOn subject keyspace
      · rw [actionsOn_cons_of_isOn hon, actionsOn_cons_of_isOn hon, ih]
      · rw [actionsOn_cons_of_not_isOn hon, actionsOn_cons_of_not_isOn hon, ih]

theorem actionsOn_concat (h : n.IsOn subject keyspace) :
  actionsOn subject keyspace (ns ++ [n]) = actionsOn subject keyspace ns ++ [n.change.action]
  := by
  rw [actionsOn_append, actionsOn_cons_of_isOn h]
  rfl

theorem actionsOn_perm (subject keyspace : String) (h : ns.Perm ms) :
  (actionsOn subject keyspace ns).Perm (actionsOn subject keyspace ms)
  := by
  apply List.Perm.map
  apply h.filter

/-- The statements of a known caller call for the notifications that are sent. -/
theorem requests_of_isKnown (h : caller.IsKnown) (statements : List String) :
  requests (statements.map (caller, ·)) = notificationsOf caller statements
  := by
  rw [notificationsOf, if_neg (by simpa [Caller.IsKnown] using h), requests, List.filterMap_map,
    List.map_filterMap]
  rfl

end Actions

/-! ### What a notification changes -/

section Delivery

variable {n : Notification} {g : Grants} {subject keyspace : String}

/-- What the record of a keyspace of a subject amounts to. -/
def standing (g : Grants) (subject keyspace : String) : KeyspaceAction :=
  if g.records subject keyspace then .add else .remove

theorem records_iff_standing :
  g.records subject keyspace = true ↔ standing g subject keyspace = .add
  := by
  rw [standing]
  cases g.records subject keyspace <;> simp

theorem standing_of_open (hopen : g.closed = false) :
  standing g subject keyspace = if ⟨subject, keyspace⟩ ∈ g.keyspaces then .add else .remove
  := by
  rw [standing, Grants.records, Grants.keyspacesOf, Grants.whenOpen_of_open hopen]
  simp [GrantTable.mem_valuesOf]

theorem Notification.isOn_iff :
  n.IsOn subject keyspace ↔ (⟨subject, keyspace⟩ : Grant) = ⟨n.caller.subject, n.change.keyspace⟩
  := by
  rw [IsOn, Grant.mk.injEq, eq_comm, @eq_comm _ n.change.keyspace]

/-- An authority that is open accepts every notification and does what it asks for. -/
theorem Notification.exists_deliver (n : Notification) (hopen : g.closed = false) :
  ∃ g', n.deliver g = .ok g' ∧ g'.closed = false
    ∧ ∀ subject keyspace, standing g' subject keyspace
      = if n.IsOn subject keyspace then n.change.action else standing g subject keyspace
  := by
  cases haction : n.change.action with
  | add =>
    use { g with keyspaces := g.keyspaces.insert n.caller.subject n.change.keyspace }
    constructor
    · rw [deliver, haction]
      apply Grants.whenOpen_of_open hopen
    constructor
    · apply hopen
    intro subject keyspace
    rw [standing_of_open hopen, standing_of_open (by exact hopen)]
    simp only [GrantTable.mem_insert, isOn_iff]
    split_ifs <;> simp_all
  | remove =>
    use { g with keyspaces := g.keyspaces.erase n.caller.subject n.change.keyspace }
    constructor
    · rw [deliver, haction]
      apply Grants.whenOpen_of_open hopen
    constructor
    · apply hopen
    intro subject keyspace
    rw [standing_of_open hopen, standing_of_open (by exact hopen)]
    simp only [GrantTable.mem_erase, isOn_iff]
    split_ifs <;> simp_all

end Delivery

namespace Traffic

variable {store : Store} {t t' : Traffic} {n : Notification} {subject keyspace : String}

/-- A state in which one more notification has reached an authority that is open. -/
structure Receives (t : Traffic) (n : Notification) (t' : Traffic) : Prop where
  executed : t'.executed = t.executed
  inFlight : t'.inFlight = t.inFlight.erase n
  isOpen : t'.grants.closed = false
  standing : ∀ subject keyspace, standing t'.grants subject keyspace
    = if n.IsOn subject keyspace then n.change.action
      else Execution.standing t.grants subject keyspace

theorem exists_deliver? (hopen : t.grants.closed = false) (hn : n ∈ t.inFlight) :
  ∃ t', t.deliver? n = some t' ∧ t.Receives n t'
  := by
  obtain ⟨g, hdeliver, hg, hstanding⟩ := n.exists_deliver hopen
  use { t with inFlight := t.inFlight.erase n, grants := g }
  constructor
  · rw [deliver?, if_pos hn, hdeliver]
  · exact ⟨rfl, rfl, hg, hstanding⟩

theorem receives_of_deliver? (hopen : t.grants.closed = false) (h : t.deliver? n = some t') :
  n ∈ t.inFlight ∧ t.Receives n t'
  := by
  by_cases hn : n ∈ t.inFlight
  · obtain ⟨u, hu, hreceives⟩ := exists_deliver? hopen hn
    rw [hu] at h
    cases h
    apply And.intro hn hreceives
  · rw [deliver?, if_neg hn] at h
    cases h

/-- What is settled stays settled when a notification is delivered. -/
theorem Settles.receives (hsettles : t.Settles subject keyspace) (hn : n ∈ t.inFlight)
    (h : t.Receives n t') :
  t'.Settles subject keyspace
  := by
  have hlast : t'.last? subject keyspace = t.last? subject keyspace := by
    rw [last?, h.executed]
    rfl
  constructor
  · intro a ha
    rw [pending, h.inFlight, mem_actionsOn] at ha
    obtain ⟨m, hm, hon, haction⟩ := ha
    rw [hlast]
    apply hsettles.1
    apply mem_actionsOn.mpr ⟨m, List.mem_of_mem_erase hm, hon, haction⟩
  · intro hnil
    rw [IsRight, records_iff_standing, h.standing, hlast]
    split
    next hon =>
      have haction := hsettles.1 n.change.action (mem_actionsOn.mpr ⟨n, hn, hon, rfl⟩)
      rw [haction, Option.some.injEq]
    next hon =>
      rw [pending, h.inFlight, actionsOn_erase hon] at hnil
      rw [← records_iff_standing]
      apply hsettles.2 hnil

/-- When all notifications on their way are delivered in some order, the last one about a keyspace
of a subject decides on its record. -/
theorem exists_run?_deliver (store : Store) {order : List Notification}
    (hopen : t.grants.closed = false) (horder : order.Perm t.inFlight) :
  ∃ t', t.run? store (order.map .deliver) = some t' ∧ t'.inFlight = [] ∧ t'.executed = t.executed
    ∧ ∀ subject keyspace, standing t'.grants subject keyspace
      = (actionsOn subject keyspace order).getLast?.getD (standing t.grants subject keyspace)
  := by
  induction order generalizing t with
  | nil =>
    use t, rfl, horder.nil_eq.symm, rfl
    intro subject keyspace
    rfl
  | cons n order ih =>
    have hn : n ∈ t.inFlight := horder.subset (List.mem_cons_self ..)
    obtain ⟨u, hu, hreceives⟩ := exists_deliver? hopen hn
    have horder' : order.Perm u.inFlight := by
      rw [hreceives.inFlight]
      apply (List.cons_perm_iff_perm_erase.mp horder).2
    obtain ⟨t', hrun, hnil, hexecuted, hstanding⟩ := ih hreceives.isOpen horder'
    use t'
    constructor
    · rw [List.map_cons, run?, List.foldlM_cons, move?, hu]
      apply hrun
    use hnil, hexecuted.trans hreceives.executed
    intro subject keyspace
    rw [hstanding, hreceives.standing]
    by_cases hon : n.IsOn subject keyspace
    · rw [if_pos hon, actionsOn_cons_of_isOn hon, List.getLast?_cons, Option.getD_some]
    · rw [if_neg hon, actionsOn_cons_of_not_isOn hon]

/-! ### What a run sends -/

/-- A state in which one more run on behalf of a caller has sent its notifications. -/
structure Sends (t : Traffic) (caller : Caller) (t' : Traffic) : Prop where
  grants : t'.grants = t.grants
  exists_statements : ∃ statements : List String,
    t'.executed = t.executed ++ statements.map (caller, ·)
      ∧ t'.inFlight = t.inFlight ++ notificationsOf caller statements

theorem sends_of_execute? {text : String} (h : t.execute? store caller text = some t') :
  t.Sends caller t'
  := by
  by_cases hfailure : (Execution.execute store t.history text).failure? = none
  · rw [execute?, Coordinator.execute_of_success _ caller t.inFlight hfailure,
      if_pos (by simp [Outcome.success, hfailure])] at h
    cases h
    exact ⟨rfl, _, rfl, rfl⟩
  · rw [execute?, Coordinator.execute_of_failure _ caller t.inFlight hfailure,
      if_neg (by simpa [Outcome.success] using hfailure)] at h
    cases h

theorem Sends.requests (hknown : caller.IsKnown) (h : t.Sends caller t') :
  ∃ sent, Execution.requests t'.executed = Execution.requests t.executed ++ sent
    ∧ t'.inFlight = t.inFlight ++ sent
  := by
  obtain ⟨statements, hexecuted, hinFlight⟩ := h.exists_statements
  use notificationsOf caller statements
  constructor
  · rw [hexecuted, ← requests_of_isKnown hknown statements, Execution.requests,
      List.filterMap_append]
    rfl
  · apply hinFlight

/-- What is settled stays settled when no notification crosses another one. -/
theorem Settles.sends (hsettles : t.Settles subject keyspace) (hknown : caller.IsKnown)
    (h : t.Sends caller t') (huncrossed : t'.Uncrossed subject keyspace) :
  t'.Settles subject keyspace
  := by
  obtain ⟨sent, hrequests, hinFlight⟩ := h.requests hknown
  have hpending : t'.pending subject keyspace
      = t.pending subject keyspace ++ actionsOn subject keyspace sent := by
    rw [pending, hinFlight, actionsOn_append]
    rfl
  have hlast : t'.last? subject keyspace
      = ((actionsOn subject keyspace sent).getLast?).or (t.last? subject keyspace) := by
    rw [last?, hrequests, actionsOn_append, List.getLast?_append]
    rfl
  rcases List.eq_nil_or_concat (actionsOn subject keyspace sent) with hnil | ⟨actions, a, hsent⟩
  · rw [hnil, List.append_nil] at hpending
    rw [hnil] at hlast
    rw [Settles, IsRight, hpending, hlast, h.grants]
    apply hsettles
  · have ha : a ∈ t'.pending subject keyspace := by
      rw [hpending, hsent]
      simp
    have hlast' : t'.last? subject keyspace = some a := by
      rw [hlast, hsent]
      simp
    constructor
    · intro b hb
      rw [hlast', huncrossed a ha b hb]
    · intro hnil
      rw [hnil] at ha
      cases ha

/-! ### What holds of every run -/

/-- The authority is open, and every notification on its way was called for. -/
structure IsSound (t : Traffic) : Prop where
  isOpen : t.grants.closed = false
  requested : ∀ n ∈ t.inFlight, n ∈ requests t.executed

theorem IsSound.receives (hsound : t.IsSound) (h : t.Receives n t') :
  t'.IsSound
  := by
  constructor
  · apply h.isOpen
  · intro m hm
    rw [h.inFlight] at hm
    rw [h.executed]
    apply hsound.requested m (List.mem_of_mem_erase hm)

theorem IsSound.sends (hsound : t.IsSound) (hknown : caller.IsKnown) (h : t.Sends caller t') :
  t'.IsSound
  := by
  obtain ⟨sent, hrequests, hinFlight⟩ := h.requests hknown
  constructor
  · rw [h.grants]
    apply hsound.isOpen
  · rw [hrequests, hinFlight]
    intro m hm
    rw [List.mem_append] at hm ⊢
    apply hm.imp_left (hsound.requested m)

theorem isSound_run? {moves : List Move} (hknown : ∀ m ∈ moves, m.IsKnown) (hsound : t.IsSound)
    (hrun : t.run? store moves = some t') :
  t'.IsSound
  := by
  induction moves generalizing t with
  | nil =>
    cases hrun
    apply hsound
  | cons m moves ih =>
    rw [run?, List.foldlM_cons, Option.bind_eq_bind, Option.bind_eq_some_iff] at hrun
    obtain ⟨u, hu, hrun⟩ := hrun
    rw [List.forall_mem_cons] at hknown
    apply ih hknown.2 _ hrun
    · cases m with
      | execute caller text => apply hsound.sends hknown.1 (sends_of_execute? hu)
      | deliver n => apply hsound.receives (receives_of_deliver? hsound.isOpen hu).2

theorem isSound_start :
  IsSound {}
  := by
  constructor
  · rfl
  · apply List.forall_mem_nil

theorem settles_start (subject keyspace : String) :
  Settles {} subject keyspace
  := by
  constructor
  · apply List.forall_mem_nil
  · intro _
    constructor <;> rintro ⟨⟩

/-- If opposite notifications are never on their way together, all is settled. -/
theorem settles_run? {moves : List Move} (hknown : ∀ m ∈ moves, m.IsKnown)
    (hrun : run? store {} moves = some t)
    (huncrossed : ∀ before u, before <+: moves → run? store {} before = some u →
      u.Uncrossed subject keyspace) :
  t.Settles subject keyspace
  := by
  induction moves using List.reverseRecOn generalizing t with
  | nil =>
    cases hrun
    apply settles_start
  | append_singleton moves m ih =>
    rw [List.forall_mem_append, List.forall_mem_singleton] at hknown
    have huncrossed' := huncrossed _ t (List.prefix_refl _) hrun
    rw [run?, List.foldlM_append, Option.bind_eq_bind, Option.bind_eq_some_iff] at hrun
    obtain ⟨u, hu, hmove⟩ := hrun
    rw [List.foldlM_cons, Option.bind_eq_bind, Option.bind_eq_some_iff] at hmove
    obtain ⟨v, hv, ⟨⟩⟩ := hmove
    have hsettles : u.Settles subject keyspace := by
      apply ih hknown.1 hu
      intro before v hbefore
      apply huncrossed before v (hbefore.trans (List.prefix_append ..))
    have hsound := isSound_run? hknown.1 isSound_start hu
    cases m with
    | execute caller text =>
      apply hsettles.sends hknown.2 (sends_of_execute? hv) huncrossed'
    | deliver n =>
      obtain ⟨hn, hreceives⟩ := receives_of_deliver? hsound.isOpen hv
      apply hsettles.receives hn hreceives

/-- Whether the record of a keyspace of a subject comes out right, in whatever order the
notifications on their way are delivered. -/
def Converges (store : Store) (t : Traffic) (subject keyspace : String) : Prop :=
  ∀ order : List Notification, order.Perm t.inFlight →
    ∃ t', t.run? store (order.map .deliver) = some t' ∧ t'.inFlight = []
      ∧ t'.IsRight subject keyspace

/-- The record comes out right exactly if whatever may be delivered last about the keyspace is what
was asked for last. -/
theorem converges_iff (hopen : t.grants.closed = false) :
  t.Converges store subject keyspace
    ↔ ∀ order : List Notification, order.Perm t.inFlight →
      ((actionsOn subject keyspace order).getLast?.getD (standing t.grants subject keyspace) = .add
        ↔ t.last? subject keyspace = some .add)
  := by
  have hdelivered {order : List Notification} (horder : order.Perm t.inFlight) :
      ∃ t', t.run? store (order.map .deliver) = some t' ∧ t'.inFlight = []
        ∧ (t'.IsRight subject keyspace
          ↔ ((actionsOn subject keyspace order).getLast?.getD (standing t.grants subject keyspace)
              = .add ↔ t.last? subject keyspace = some .add)) := by
    obtain ⟨t', hrun, hnil, hexecuted, hstanding⟩ := exists_run?_deliver store hopen horder
    use t', hrun, hnil
    rw [IsRight, records_iff_standing, hstanding, last?, hexecuted]
    rfl
  constructor
  · intro h order horder
    obtain ⟨t', hrun, -, hright⟩ := hdelivered horder
    obtain ⟨u, hu, -, hu'⟩ := h order horder
    rw [hrun] at hu
    cases hu
    apply hright.mp hu'
  · intro h order horder
    obtain ⟨t', hrun, hnil, hright⟩ := hdelivered horder
    use t', hrun, hnil
    apply hright.mpr (h order horder)

theorem Settles.converges (hopen : t.grants.closed = false)
    (hsettles : t.Settles subject keyspace) :
  t.Converges store subject keyspace
  := by
  rw [converges_iff hopen]
  intro order horder
  have hperm := actionsOn_perm subject keyspace horder
  cases hdelivered : (actionsOn subject keyspace order).getLast? with
  | none =>
    rw [List.getLast?_eq_none_iff] at hdelivered
    rw [Option.getD_none, ← records_iff_standing]
    apply hsettles.2
    apply (hdelivered ▸ hperm).nil_eq.symm
  | some a =>
    have ha : a ∈ t.pending subject keyspace := hperm.subset (List.mem_of_getLast? hdelivered)
    rw [hsettles.1 a ha, Option.getD_some, Option.some.injEq]

theorem Converges.settles (hsound : t.IsSound) (h : t.Converges store subject keyspace) :
  t.Settles subject keyspace
  := by
  rw [converges_iff hsound.isOpen] at h
  constructor
  · intro a ha
    -- What asks for `a` may be delivered last.
    obtain ⟨n, hn, hon, rfl⟩ := mem_actionsOn.mp ha
    have horder : (t.inFlight.erase n ++ [n]).Perm t.inFlight := by
      apply (List.perm_append_singleton _ _).trans
      apply (List.perm_cons_erase hn).symm
    have hright := h _ horder
    rw [actionsOn_concat hon, List.getLast?_concat, Option.getD_some] at hright
    have hsome : t.last? subject keyspace ≠ none := by
      rw [last?, ne_eq, List.getLast?_eq_none_iff]
      apply List.ne_nil_of_mem
      apply mem_actionsOn.mpr ⟨n, hsound.requested n hn, hon, rfl⟩
    cases hlast : t.last? subject keyspace with
    | none => cases hsome hlast
    | some b =>
      rw [hlast, Option.some.injEq] at hright
      cases haction : n.change.action with
      | add => rw [hright.mp haction]
      | remove =>
        cases b with
        | remove => rfl
        | add => cases haction.symm.trans (hright.mpr rfl)
  · intro hnil
    have hright := h t.inFlight (List.Perm.refl _)
    rw [← pending, hnil] at hright
    rw [IsRight, records_iff_standing]
    apply hright

/-- The record of a keyspace of a subject comes out right in every order of delivery exactly if it
is settled; and it is settled if opposite notifications about it were never on their way
together. -/
theorem converges_iff_settles {moves : List Move} (hknown : ∀ m ∈ moves, m.IsKnown)
    (hrun : run? store {} moves = some t) (subject keyspace : String) :
  (t.Converges store subject keyspace ↔ t.Settles subject keyspace)
    ∧ ((∀ before u, before <+: moves → run? store {} before = some u →
      u.Uncrossed subject keyspace) → t.Settles subject keyspace)
  := by
  have hsound := isSound_run? hknown isSound_start hrun
  constructor
  · constructor
    · apply Converges.settles hsound
    · apply Settles.converges hsound.isOpen
  · apply settles_run? hknown hrun

/-- A store that does all it is asked for. -/
def willing : Store := fun _ _ => .done none

/-- A caller that is known. -/
def alice : Caller := ⟨"alice", "token"⟩

/-- A keyspace is created, recorded and dropped. -/
def renewal : List Move :=
  [.execute alice "CREATE KEYSPACE shop", .deliver ⟨alice, .add, "shop"⟩,
    .execute alice "DROP KEYSPACE shop"]

theorem converges_renewal :
  (∀ m ∈ renewal, m.IsKnown)
    ∧ ∃ t, run? willing {} renewal = some t ∧ t.pending "alice" "shop" = [.remove]
      ∧ t.Settles "alice" "shop"
      ∧ (t.Converges willing "alice" "shop" ↔ t.Settles "alice" "shop")
  := by
  have hknown : ∀ m ∈ renewal, m.IsKnown := by
    simp [renewal, Move.IsKnown, Caller.IsKnown, alice]
  have hstate : ((run? willing {} renewal).any fun t =>
      t.pending "alice" "shop" = [.remove] ∧ t.Settles "alice" "shop") = true := by
    decide
  cases hrun : run? willing {} renewal with
  | none =>
    rw [hrun] at hstate
    cases hstate
  | some t =>
    rw [hrun] at hstate
    obtain ⟨hpending, hsettles⟩ := of_decide_eq_true hstate
    exact ⟨hknown, t, rfl, hpending, hsettles,
      (converges_iff_settles hknown hrun "alice" "shop").1⟩

/-- A keyspace is created and dropped, and the second notification comes first. -/
def overtaking : List Move :=
  [.execute alice "CREATE KEYSPACE shop", .execute alice "DROP KEYSPACE shop",
    .deliver ⟨alice, .remove, "shop"⟩, .deliver ⟨alice, .add, "shop"⟩]

/-- A keyspace that was dropped stays recorded if the notifications overtake each other. -/
theorem records_overtaking :
  (∀ m ∈ overtaking, m.IsKnown)
    ∧ ((run? willing {} overtaking).map fun t =>
        (t.inFlight, t.last? "alice" "shop", t.grants.records "alice" "shop"))
      = some ([], some .remove, true)
  := by
  constructor
  · simp [overtaking, Move.IsKnown, Caller.IsKnown, alice]
  · decide

end Traffic

end Execution

end CqlGateway

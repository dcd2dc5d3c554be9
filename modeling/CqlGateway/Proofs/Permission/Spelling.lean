import CqlGateway.Permission.Grants
import CqlGateway.Proofs.Permission.Credential
import CqlGateway.Proofs.Text.Case

/-!
# Spellings of operations

The tables of grants tell two spellings of an operation apart unless they differ in letter case
only. The cache also overlooks blanks around them. So a permission in force is one that no
revocation since has spelled alike up to letter case; a revocation that differs in blanks is
without effect. As long as no operation is spelled with blanks around it, grants, revocations and
the cache agree on what an operation is.
-/

namespace CqlGateway.Permission

variable {identity : String → String}

/-! ### Grants and revocations -/

/-- A call that grants operations to a subject or revokes them. -/
inductive GrantCall where
  | grant (subject : String) (operations : List String)
  | revoke (subject : String) (operations : List String)

/-- What a call does to one operation of a subject. -/
inductive GrantChange where
  | granted (subject operation : String)
  | revoked (subject operation : String)

namespace GrantChange

/-- Whom a change is about. -/
def subject : GrantChange → String
  | granted subject _ | revoked subject _ => subject

/-- The operation as it is spelled in the call. -/
def operation : GrantChange → String
  | granted _ operation | revoked _ operation => operation

end GrantChange

namespace GrantCall

/-- Whom a call is about. -/
def subject : GrantCall → String
  | grant subject _ | revoke subject _ => subject

/-- The changes of a call, one for each operation. -/
def changes : GrantCall → List GrantChange
  | grant subject operations => operations.map (.granted subject)
  | revoke subject operations => operations.map (.revoked subject)

/-- Perform a call. -/
def perform (g : Grants) : GrantCall → Except Failure Grants
  | grant subject operations => g.grant subject operations
  | revoke subject operations => g.revoke subject operations

end GrantCall

/-- Perform calls one after another, up to the first that fails. -/
def Grants.performAll (g : Grants) : List GrantCall → Except Failure Grants
  | [] => .ok g
  | call :: calls => do (← call.perform g).performAll calls

/-- The tables as an authority; credentials are not looked at. -/
def Grants.fetcher (g : Grants) : Fetcher := fun subject _ => g.allowedOperations subject

/-- An operation was granted to a subject, and no operation with the same identity was revoked from
the subject since. -/
def IsInForce (identity : String → String) (changes : List GrantChange)
    (subject operation : String) : Prop :=
  ∃ earlier later, changes = earlier ++ .granted subject operation :: later
    ∧ ∀ op, .revoked subject op ∈ later → identity op ≠ identity operation

/-- A spelling of an operation, or of the permission for all of them, is in force. -/
def IsPermitted (identity : String → String) (changes : List GrantChange)
    (subject operation : String) : Prop :=
  ∃ op, IsInForce identity changes subject op
    ∧ (normalizeOperation op = wildcard ∨ normalizeOperation op = normalizeOperation operation)

theorem isInForce_concat {changes : List GrantChange} {change : GrantChange}
    {subject operation : String} :
  IsInForce identity (changes ++ [change]) subject operation
    ↔ change = .granted subject operation
      ∨ IsInForce identity changes subject operation
        ∧ ∀ op, change = .revoked subject op → identity op ≠ identity operation
  := by
  constructor
  · rintro ⟨earlier, later, heq, hlater⟩
    rcases List.eq_nil_or_concat later with rfl | ⟨later, last, rfl⟩
    · obtain ⟨-, hlast⟩ := List.append_inj' heq rfl
      exact .inl (List.singleton_inj.mp hlast)
    · rw [List.concat_eq_append, ← List.cons_append, ← List.append_assoc] at heq
      obtain ⟨rfl, hlast⟩ := List.append_inj' heq rfl
      obtain rfl := List.singleton_inj.mp hlast
      refine .inr ⟨⟨earlier, later, rfl, ?_⟩, ?_⟩
      · intro op hop
        exact hlater op (by simp [hop])
      · rintro op rfl
        exact hlater op (by simp)
  · rintro (rfl | ⟨⟨earlier, later, rfl, hlater⟩, hchange⟩)
    · exact ⟨changes, [], rfl, by simp⟩
    · refine ⟨earlier, later ++ [change], by simp, ?_⟩
      intro op hop
      rw [List.mem_append, List.mem_singleton] at hop
      rcases hop with hop | hop
      · exact hlater op hop
      · exact hchange op hop.symm

theorem not_isInForce_nil {subject operation : String} :
  ¬ IsInForce identity [] subject operation
  := by
  rintro ⟨earlier, later, heq, -⟩
  simp at heq

/-! ### The tables -/

namespace GrantTable

variable {value : String} {t : GrantTable}

/-- The table after a change. -/
def change (t : GrantTable) : GrantChange → GrantTable
  | .granted subject operation => t.insert subject (Text.lower operation)
  | .revoked subject operation => t.erase subject (Text.lower operation)

theorem mem_erase {subject : String} {row : Grant} :
  row ∈ t.erase subject value ↔ row ∈ t ∧ row ≠ ⟨subject, value⟩
  := by
  obtain ⟨s, v⟩ := row
  simp [erase, imp_iff_not_or]

theorem mem_insert {subject : String} {row : Grant} :
  row ∈ t.insert subject value ↔ row = ⟨subject, value⟩ ∨ row ∈ t
  := by
  rw [insert, List.mem_append, List.mem_singleton, mem_erase]
  by_cases h : row = ⟨subject, value⟩
  · simp [h]
  · simp [h]

/-- What the table holds after changes are the operations in force, in small letters. -/
theorem mem_changes {changes : List GrantChange} {subject : String} :
  ⟨subject, value⟩ ∈ changes.foldl change []
    ↔ ∃ op, IsInForce Text.lower changes subject op ∧ Text.lower op = value
  := by
  -- By the last change, since a revocation concerns only the grants before it.
  induction changes using List.reverseRecOn with
  | nil => simp [not_isInForce_nil]
  | append_singleton changes c ih =>
    rw [List.foldl_concat]
    simp only [isInForce_concat]
    cases c with
    | granted s o =>
      rw [change, mem_insert, ih]
      constructor
      · rintro (h | ⟨op, hop, hvalue⟩)
        · obtain ⟨rfl, rfl⟩ := Grant.mk.inj h
          exact ⟨o, .inl rfl, rfl⟩
        · exact ⟨op, .inr ⟨hop, by simp⟩, hvalue⟩
      · rintro ⟨op, h | ⟨hop, -⟩, hvalue⟩
        · obtain ⟨rfl, rfl⟩ := GrantChange.granted.inj h
          exact .inl (by rw [hvalue])
        · exact .inr ⟨op, hop, hvalue⟩
    | revoked s o =>
      rw [change, mem_erase, ih]
      constructor
      · rintro ⟨⟨op, hop, hvalue⟩, hne⟩
        refine ⟨op, .inr ⟨hop, ?_⟩, hvalue⟩
        rintro o' h heq
        obtain ⟨rfl, rfl⟩ := GrantChange.revoked.inj h
        exact hne (by rw [heq, hvalue])
      · rintro ⟨op, h | ⟨hop, hrevoked⟩, rfl⟩
        · cases h
        · refine ⟨⟨op, hop, rfl⟩, ?_⟩
          intro h
          obtain ⟨rfl, hvalue⟩ := Grant.mk.inj h
          exact hrevoked o rfl hvalue.symm

theorem mem_valuesOf {subject : String} :
  value ∈ t.valuesOf subject ↔ ⟨subject, value⟩ ∈ t
  := by
  rw [valuesOf, Text.mem_sort, List.mem_map]
  constructor
  · rintro ⟨⟨s, v⟩, hrow, rfl⟩
    obtain ⟨hrow, hs⟩ := List.mem_filter.mp hrow
    rwa [← of_decide_eq_true hs]
  · intro h
    exact ⟨_, List.mem_filter.mpr ⟨h, by simp⟩, rfl⟩

end GrantTable

namespace Grants

variable {g : Grants}

theorem whenOpen_of_open (hopen : g.closed = false) {α : Type} (context : String) (a : α) :
  g.whenOpen context a = .ok a
  := by
  rw [whenOpen, hopen]
  rfl

theorem grant_eq (hopen : g.closed = false) (subject : String) (operations : List String) :
  g.grant subject operations
    = .ok { g with
        operations := (operations.map (.granted subject)).foldl GrantTable.change g.operations }
  := by
  induction operations generalizing g with
  | nil => rfl
  | cons op operations ih =>
    rw [grant, whenOpen_of_open hopen]
    exact ih hopen

theorem revoke_eq (hopen : g.closed = false) (subject : String) (operations : List String) :
  g.revoke subject operations
    = .ok { g with
        operations := (operations.map (.revoked subject)).foldl GrantTable.change g.operations }
  := by
  induction operations generalizing g with
  | nil => rfl
  | cons op operations ih =>
    rw [revoke, whenOpen_of_open hopen]
    exact ih hopen

/-- As long as the tables are open, every call succeeds and makes its changes one by one. -/
theorem performAll_eq (hopen : g.closed = false) (calls : List GrantCall) :
  g.performAll calls
    = .ok { g with
        operations := (calls.flatMap GrantCall.changes).foldl GrantTable.change g.operations }
  := by
  induction calls generalizing g with
  | nil => rfl
  | cons call calls ih =>
    have hperform : call.perform g = .ok { g with
        operations := call.changes.foldl GrantTable.change g.operations } := by
      cases call with
      | grant subject operations => exact grant_eq hopen subject operations
      | revoke subject operations => exact revoke_eq hopen subject operations
    rw [performAll, hperform, List.flatMap_cons, List.foldl_append]
    exact ih hopen

/-- What the authority says after calls: the operations in force, in small letters. -/
theorem fetcher_performAll (calls : List GrantCall) (subject credential : String) :
  ∃ g granted, performAll {} calls = .ok g ∧ g.fetcher subject credential = .ok granted
    ∧ ∀ value, value ∈ granted
      ↔ ∃ op, IsInForce Text.lower (calls.flatMap GrantCall.changes) subject op
        ∧ Text.lower op = value
  := by
  refine ⟨_, _, performAll_eq rfl calls, rfl, ?_⟩
  intro value
  rw [GrantTable.mem_valuesOf, GrantTable.mem_changes]

end Grants

/-! ### Subjects -/

/-- Only the changes for a subject decide what is in force for it. -/
theorem isInForce_filter {changes : List GrantChange} {subject operation : String} :
  IsInForce identity (changes.filter (·.subject = subject)) subject operation
    ↔ IsInForce identity changes subject operation
  := by
  induction changes using List.reverseRecOn with
  | nil => exact Iff.rfl
  | append_singleton changes change ih =>
    rw [List.filter_append, isInForce_concat, ← ih]
    by_cases h : change.subject = subject
    · rw [List.filter_cons_of_pos (by simpa using h), List.filter_nil, isInForce_concat]
    · rw [List.filter_cons_of_neg (by simpa using h), List.filter_nil, List.append_nil]
      constructor
      · intro hforce
        refine .inr ⟨hforce, ?_⟩
        rintro op rfl
        exact (h rfl).elim
      · rintro (rfl | ⟨hforce, -⟩)
        · exact (h rfl).elim
        · exact hforce

theorem changes_filter (calls : List GrantCall) (subject : String) :
  (calls.filter (·.subject = subject)).flatMap GrantCall.changes
    = (calls.flatMap GrantCall.changes).filter (·.subject = subject)
  := by
  have hsubject {call : GrantCall} {change : GrantChange} (h : change ∈ call.changes) :
      change.subject = call.subject := by
    cases call with
    | grant s operations | revoke s operations =>
      obtain ⟨op, -, rfl⟩ := List.mem_map.mp h
      rfl
  induction calls with
  | nil => rfl
  | cons call calls ih =>
    rw [List.flatMap_cons, List.filter_append, ← ih]
    by_cases h : call.subject = subject
    · have hown : call.changes.filter (·.subject = subject) = call.changes := by
        rw [List.filter_eq_self]
        intro change hchange
        simpa [hsubject hchange] using h
      rw [List.filter_cons_of_pos (by simpa using h), List.flatMap_cons, hown]
    · have hother : call.changes.filter (·.subject = subject) = [] := by
        rw [List.filter_eq_nil_iff]
        intro change hchange
        simpa [hsubject hchange] using h
      rw [List.filter_cons_of_neg (by simpa using h), hother, List.nil_append]

theorem isPermitted_filter {calls : List GrantCall} {subject operation : String} :
  IsPermitted identity ((calls.filter (·.subject = subject)).flatMap GrantCall.changes) subject
      operation
    ↔ IsPermitted identity (calls.flatMap GrantCall.changes) subject operation
  := by
  rw [changes_filter]
  simp only [IsPermitted, isInForce_filter]

/-! ### Spellings -/

@[simp]
theorem normalizeOperation_lower (operation : String) :
  normalizeOperation (Text.lower operation) = normalizeOperation operation
  := by
  rw [normalizeOperation, Text.trim_lower, Text.lower_lower, normalizeOperation]

theorem normalizeOperation_ne_empty {operation : String} (h : Text.trim operation ≠ "") :
  normalizeOperation operation ≠ ""
  := by
  intro hempty
  have hchars := congrArg String.toList hempty
  rw [normalizeOperation, Text.lower, String.toList_ofList, String.toList_empty,
    List.map_eq_nil_iff, String.toList_eq_nil_iff] at hchars
  exact h hchars

/-- An operation of which no spelling was revoked is in force. -/
theorem IsPermitted.lower {changes : List GrantChange} {subject operation : String}
    (h : IsPermitted normalizeOperation changes subject operation) :
  IsPermitted Text.lower changes subject operation
  := by
  obtain ⟨op, ⟨earlier, later, heq, hlater⟩, hop⟩ := h
  refine ⟨op, ⟨earlier, later, heq, ?_⟩, hop⟩
  intro op' hop' hlower
  apply hlater op' hop'
  rw [← normalizeOperation_lower op', hlower, normalizeOperation_lower]

/-- Without blanks around operations, letter case is all in which their spellings differ. -/
theorem isPermitted_of_trimmed {changes : List GrantChange} {subject operation : String}
    (htrimmed : ∀ change ∈ changes, change.subject = subject →
      Text.trim change.operation = change.operation) :
  IsPermitted Text.lower changes subject operation
    ↔ IsPermitted normalizeOperation changes subject operation
  := by
  -- Where nothing is to be trimmed, both identities are the operation in small letters.
  refine ⟨?_, IsPermitted.lower⟩
  rintro ⟨op, ⟨earlier, later, rfl, hlater⟩, hop⟩
  refine ⟨op, ⟨earlier, later, rfl, ?_⟩, hop⟩
  intro op' hop' hnormal
  have htrim : Text.trim op = op := htrimmed (.granted subject op) (by simp) rfl
  have htrim' : Text.trim op' = op' := htrimmed (.revoked subject op') (by simp [hop']) rfl
  apply hlater op' hop'
  rwa [normalizeOperation, htrim', normalizeOperation, htrim] at hnormal

/-! ### The cache -/

namespace Cache

variable {c : Cache} {now : Int}

theorem fresh?_insert {e : Entry} (hsize : 0 < c.size) (hage : now - e.refreshedAt < c.ttl) :
  (c.insert e).fresh? now e.subject = some e
  := by
  obtain ⟨size, hsize⟩ := Nat.exists_eq_succ_of_ne_zero hsize.ne'
  simp [fresh?, find?, insert, touch, hsize, hage, Option.filter_some]

/-- A fetch answers the call that makes it and those after it while it is fresh. -/
theorem hasPermission_of_fetched {subject : String} (hfetches : c.fresh? now subject = none)
    (hsize : 0 < c.size) {fetcher : Fetcher} {credential : String} {granted : List String}
    (hgranted : fetcher subject credential = .ok granted) {completed later : Int}
    (hlater : later - completed < c.ttl) (fetcher' : Fetcher) (completed' : Int)
    (operation credential' : String) :
  (c.operations fetcher now completed subject credential).cache.hasPermission fetcher' later
      completed' subject operation credential'
    = c.hasPermission fetcher now completed subject operation credential
  := by
  have hl : c.operations fetcher now completed subject credential
      = ⟨operationSet granted, .miss,
        (c.used subject).insert ⟨subject, operationSet granted, completed⟩⟩ := by
    rw [operations_eq, hfetches]
    simp [fetch, hgranted]
  have hfresh : ((c.used subject).insert ⟨subject, operationSet granted, completed⟩).fresh? later
      subject = some ⟨subject, operationSet granted, completed⟩ := by
    rw [c.used_eq subject]
    exact fresh?_insert hsize hlater
  rw [hl, hasPermission_of_fresh hfresh, hasPermission, hl]

end Cache

/-- After calls, a lookup that fetches finds the operations in force. -/
theorem hasPermission_performAll (calls : List GrantCall) (c : Cache) (now completed : Int)
    (subject operation credential : String)
    (hfetches : c.fresh? now subject = none) (hop : Text.trim operation ≠ "") :
  ∃ g granted, Grants.performAll {} calls = .ok g ∧ g.fetcher subject credential = .ok granted
    ∧ (c.hasPermission g.fetcher now completed subject operation credential = true
      ↔ IsPermitted Text.lower (calls.flatMap GrantCall.changes) subject operation)
  := by
  obtain ⟨g, granted, hg, hgranted, hmem⟩ := Grants.fetcher_performAll calls subject credential
  refine ⟨g, granted, hg, hgranted, ?_⟩
  rw [Cache.hasPermission_of_stale hfetches, hgranted]
  constructor
  · rintro ⟨_, ⟨⟩, value, hvalue, hallows⟩
    obtain ⟨op, hforce, rfl⟩ := (hmem value).mp hvalue
    rw [normalizeOperation_lower] at hallows
    exact ⟨op, hforce, hallows.imp_right And.left⟩
  · rintro ⟨op, hforce, hop'⟩
    refine ⟨granted, rfl, Text.lower op, (hmem _).mpr ⟨op, hforce, rfl⟩, ?_⟩
    rw [normalizeOperation_lower]
    exact hop'.imp_right fun h => ⟨h, normalizeOperation_ne_empty hop⟩

/-- Whatever operations are granted and revoked, and however they are spelled: an operation is
permitted exactly if a spelling of it or of the permission for all was granted and was not revoked
since in a spelling that differs in letter case at most. No permission gets lost that was not
revoked in any spelling, and where the operations of the subject are spelled without blanks around
them, none outlasts its revocation. Other subjects do not matter, and as long as the fetch is fresh
the answer stays the same. -/
theorem hasPermission_of_calls (calls : List GrantCall) (c : Cache) (now completed : Int)
    (subject operation credential : String)
    (hfetches : c.fresh? now subject = none) (hop : Text.trim operation ≠ "") :
  ∃ g, Grants.performAll {} calls = .ok g
    ∧ (c.hasPermission g.fetcher now completed subject operation credential = true
      ↔ IsPermitted Text.lower (calls.flatMap GrantCall.changes) subject operation)
    ∧ (IsPermitted normalizeOperation (calls.flatMap GrantCall.changes) subject operation →
      c.hasPermission g.fetcher now completed subject operation credential = true)
    ∧ ((∀ change ∈ calls.flatMap GrantCall.changes, change.subject = subject →
        Text.trim change.operation = change.operation) →
      (c.hasPermission g.fetcher now completed subject operation credential = true
        ↔ IsPermitted normalizeOperation (calls.flatMap GrantCall.changes) subject operation))
    ∧ (∃ own, Grants.performAll {} (calls.filter (·.subject = subject)) = .ok own
      ∧ c.hasPermission own.fetcher now completed subject operation credential
        = c.hasPermission g.fetcher now completed subject operation credential)
    ∧ (0 < c.size → ∀ fetcher later completed' credential', later - completed < c.ttl →
      (c.operations g.fetcher now completed subject credential).cache.hasPermission fetcher later
          completed' subject operation credential'
        = c.hasPermission g.fetcher now completed subject operation credential)
  := by
  obtain ⟨g, granted, hg, hgranted, hanswer⟩ :=
    hasPermission_performAll calls c now completed subject operation credential hfetches hop
  obtain ⟨own, -, hown, -, hanswer'⟩ :=
    hasPermission_performAll (calls.filter (·.subject = subject)) c now completed subject operation
      credential hfetches hop
  refine ⟨g, hg, hanswer, ?_, ?_, ⟨own, hown, ?_⟩, ?_⟩
  · exact fun h => hanswer.mpr h.lower
  · intro htrimmed
    rw [hanswer, isPermitted_of_trimmed htrimmed]
  · rw [Bool.eq_iff_iff, hanswer', hanswer, isPermitted_filter]
  · intro hsize fetcher later completed' credential' hlater
    exact Cache.hasPermission_of_fetched hfetches hsize hgranted hlater _ _ _ _

theorem hasPermission_of_calls_capital :
  let calls := [GrantCall.grant "alice" ["SELECT"], .revoke "bob" ["select"]]
  (Cache.ofSettings 0 0).fresh? 0 "alice" = none ∧ Text.trim "select " ≠ ""
    ∧ ∃ g, Grants.performAll {} calls = .ok g
      ∧ (Cache.ofSettings 0 0).hasPermission g.fetcher 0 0 "alice" "select " "" = true
  := by
  intro calls
  obtain ⟨g, hg, hanswer, -⟩ :=
    hasPermission_of_calls calls (Cache.ofSettings 0 0) 0 0 "alice" "select " "" rfl (by decide)
  have hpermitted : IsPermitted Text.lower (calls.flatMap GrantCall.changes) "alice" "select " :=
    ⟨"SELECT", ⟨[], [.revoked "bob" "select"], rfl, by simp⟩, .inr (by decide)⟩
  exact ⟨rfl, by decide, g, hg, hanswer.mpr hpermitted⟩

/-- A grant that is spelled with a blank outlasts the revocation of the operation without it. -/
theorem hasPermission_revoked_without_blank :
  let calls := [GrantCall.grant "alice" [" select"], .revoke "alice" ["select"]]
  ∃ g, Grants.performAll {} calls = .ok g
    ∧ (Cache.ofSettings 0 0).hasPermission g.fetcher 0 0 "alice" "select" "" = true
    ∧ ¬ IsPermitted normalizeOperation (calls.flatMap GrantCall.changes) "alice" "select"
  := by
  refine ⟨⟨[⟨"alice", " select"⟩], [], false⟩, rfl, by decide, ?_⟩
  rintro ⟨op, hforce, -⟩
  change IsInForce _ ([_] ++ [_]) _ _ at hforce
  rcases isInForce_concat.mp hforce with h | ⟨hforce, hrevoked⟩
  · cases h
  · change IsInForce _ ([] ++ [_]) _ _ at hforce
    rcases isInForce_concat.mp hforce with h | ⟨h, -⟩
    · obtain ⟨-, rfl⟩ := GrantChange.granted.inj h
      exact hrevoked "select" rfl (by decide)
    · exact not_isInForce_nil h

end CqlGateway.Permission

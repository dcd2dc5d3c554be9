import CqlGateway.Proofs.Permission.History

/-!
# Credentials and the permission cache

Entries of the cache belong to subjects, and a credential is shown to the authority only. So there
are two cases: as long as the latest fetch for a subject is fresh and not dropped, it may answer
for every credential of the subject; otherwise a credential is judged by the authority alone,
whatever was fetched before.
-/

namespace CqlGateway.Permission

namespace Cache

variable {c : Cache} {now : Int} {subject : String}

/-- A fresh entry answers in the same way whatever credential is shown. -/
theorem hasPermission_of_fresh {e : Entry} (h : c.fresh? now subject = some e) (fetcher : Fetcher)
    (completed : Int) (operation credential : String) :
  c.hasPermission fetcher now completed subject operation credential
    = grants e.operations operation
  := by
  rw [hasPermission, operations_eq, h]

/-- Without a fresh entry, it is the authority that decides on the credential. -/
theorem hasPermission_of_stale (h : c.fresh? now subject = none) (fetcher : Fetcher)
    (completed : Int) (operation credential : String) :
  c.hasPermission fetcher now completed subject operation credential = true
    ↔ ∃ granted, fetcher subject credential = .ok granted ∧ Allows granted operation
  := by
  rw [hasPermission, operations_eq, h]
  unfold fetch
  cases hfetch : fetcher subject credential with
  | ok granted => simp [grants_operationSet]
  | error f => simp [grants_nil]

end Cache

/-- After any run, permissions of a subject are answered in one of two ways. Either the latest
fetch for the subject is fresh and was not dropped since, and it answers for every credential; or
the answer for a credential is that of the authority, whatever was fetched before. -/
theorem hasPermission_credential
    (ttl : Int) (size : Nat) (calls : List TimedCall) (now : Int) (subject operation : String) :
  let r := CacheRun.ofCalls ttl size calls
  (∃ granted time, IsStanding r.log subject granted time ∧ now < time + ttl
      ∧ ∀ fetcher completed credential,
        r.cache.hasPermission fetcher now completed subject operation credential = true
          ↔ Allows granted operation)
    ∨ ∀ fetcher completed credential,
      r.cache.hasPermission fetcher now completed subject operation credential = true
        ↔ ∃ granted, fetcher subject credential = .ok granted ∧ Allows granted operation
  := by
  intro r
  have hsound : r.IsSound := CacheRun.isSound_ofCalls ttl size calls
  have httl : r.cache.ttl = ttl := CacheRun.ttl_ofCalls ttl size calls
  cases hfresh : r.cache.fresh? now subject with
  | none =>
    right
    intro fetcher completed credential
    apply Cache.hasPermission_of_stale hfresh
  | some e =>
    left
    obtain ⟨he, rfl, hage⟩ := Cache.mem_of_fresh? hfresh
    obtain ⟨granted, hstanding, hoperations⟩ := hsound.backed e he
    refine ⟨granted, e.refreshedAt, hstanding, by omega, ?_⟩
    intro fetcher completed credential
    rw [Cache.hasPermission_of_fresh hfresh, hoperations, grants_operationSet]

/-- A credential that the authority does not know is refused by an empty cache. After a call with
one that it knows, it passes. -/
theorem hasPermission_unknown_credential :
  let r := CacheRun.ofCalls Cache.standardTtl Cache.standardSize
    [⟨.hasPermission "alice" "select" "first", strictAuthority, 0, 0⟩]
  let start := CacheRun.ofCalls Cache.standardTtl Cache.standardSize []
  strictAuthority "alice" "second" = .error (.plain "unknown credential")
    ∧ start.cache.hasPermission strictAuthority 1 1 "alice" "select" "second" = false
    ∧ r.cache.hasPermission strictAuthority 1 1 "alice" "select" "second" = true
  := ⟨rfl, rfl, rfl⟩

end CqlGateway.Permission

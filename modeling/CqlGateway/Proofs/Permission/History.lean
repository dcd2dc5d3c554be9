import CqlGateway.Permission.Cache
import CqlGateway.Proofs.Text.Sorted
import Mathlib.Data.List.Find
import Mathlib.Data.List.Induction
import Mathlib.Data.List.Nodup

/-!
# Runs of the permission cache

A run is a list of calls, each made at a time of its own and answered by the authority as it is
then. The log of a run tells what was fetched and what was dropped. Whatever the calls are, every
entry of the cache stands in the log as the latest fetch for its subject, and nothing has dropped
it since. So a permission is granted only by a fetch of the call itself, or by the latest fetch
before it while that is fresh.
-/

namespace CqlGateway.Permission

variable {granted : List String}

/-! ### Calls and their log -/

/-- A call of the cache. -/
inductive CacheCall where
  | allowedOperations (subject credential : String)
  | hasPermission (subject operation credential : String)
  | lookup (subject : String)
  | invalidate (subject : String)
  | clear

/-- A call when it is made: the time, and the authority as it answers then. If the call fetches,
the fetch is completed at the second time. -/
structure TimedCall where
  call : CacheCall
  fetcher : Fetcher
  now : Int
  completed : Int

/-- What a call answers. -/
inductive CacheAnswer where
  | operations (ops : List String)
  | permission (granted : Bool)
  | entry (e? : Option Entry)
  | done

/-- Whether an answer allows no operation. -/
def CacheAnswer.isBarren : CacheAnswer → Bool
  | .operations ops => ops.isEmpty
  | .permission granted => !granted
  | .entry _ | .done => true

/-- What is written in the log. -/
inductive CacheEvent where
  /-- The authority granted operations to a subject. -/
  | fetched (subject : String) (granted : List String) (time : Int)
  /-- The authority refused to answer. -/
  | failed (subject : String)
  | invalidated (subject : String)
  | cleared

namespace CacheEvent

/-- Whether an event is a fetch for a subject that succeeded. -/
def fetches (subject : String) : CacheEvent → Bool
  | .fetched s _ _ => s = subject
  | _ => false

/-- Whether an event drops what was fetched for a subject. -/
def drops (subject : String) : CacheEvent → Bool
  | .invalidated s => s = subject
  | .cleared => true
  | _ => false

end CacheEvent

/-- The answer of a call, with the cache and the events that it leaves. -/
structure Performed where
  answer : CacheAnswer
  cache : Cache
  events : List CacheEvent := []

/-- The events of a lookup: there is none unless the authority was asked. -/
def TimedCall.lookupEvents (t : TimedCall) (result : LookupResult) (subject credential : String) :
    List CacheEvent :=
  match result, t.fetcher subject credential with
  | .hit, _ => []
  | _, .ok granted => [.fetched subject granted t.completed]
  | _, .error _ => [.failed subject]

namespace Cache

/-- Whether a subject that shows a credential may run an operation. -/
def hasPermission (c : Cache) (fetcher : Fetcher) (now completed : Int)
    (subject operation credential : String) : Bool :=
  grants (c.operations fetcher now completed subject credential).operations operation

/-- Perform a call. -/
def perform (c : Cache) (t : TimedCall) : Performed :=
  match t.call with
  | .allowedOperations subject credential =>
    let l := c.operations t.fetcher t.now t.completed subject credential
    ⟨.operations l.operations, l.cache, t.lookupEvents l.result subject credential⟩
  | .hasPermission subject operation credential =>
    let l := c.operations t.fetcher t.now t.completed subject credential
    ⟨.permission (c.hasPermission t.fetcher t.now t.completed subject operation credential),
      l.cache, t.lookupEvents l.result subject credential⟩
  | .lookup subject => ⟨.entry (c.find? subject), c, []⟩
  | .invalidate subject => ⟨.done, c.erase subject, [.invalidated subject]⟩
  | .clear => ⟨.done, c.clear, [.cleared]⟩

end Cache

/-- A cache together with the log of the calls that led to it, the last event in front. -/
structure CacheRun where
  cache : Cache
  log : List CacheEvent := []

namespace CacheRun

/-- The run with one more call. -/
def next (r : CacheRun) (t : TimedCall) : CacheRun :=
  ⟨(r.cache.perform t).cache, (r.cache.perform t).events ++ r.log⟩

/-- The run of calls on an empty cache. -/
def ofCalls (ttl : Int) (size : Nat) (calls : List TimedCall) : CacheRun :=
  calls.foldl next ⟨{ ttl := ttl, size := size }, []⟩

end CacheRun

/-- Calls at the times of a clock that never goes back. -/
def InOrder (calls : List TimedCall) : Prop :=
  calls.Pairwise fun t u => t.completed ≤ u.now

/-- The latest fetch for a subject, with what happened since. -/
def IsLatestFetch (log : List CacheEvent) (subject : String) (granted : List String) (time : Int)
    (since : List CacheEvent) : Prop :=
  ∃ earlier, log = since ++ .fetched subject granted time :: earlier
    ∧ ∀ event ∈ since, event.fetches subject = false

/-- The latest fetch for a subject, if nothing has dropped it since. -/
def IsStanding (log : List CacheEvent) (subject : String) (granted : List String) (time : Int) :
    Prop :=
  ∃ since, IsLatestFetch log subject granted time since
    ∧ ∀ event ∈ since, event.drops subject = false

/-- What an authority grants holds an operation, or the permission for all of them. -/
def Allows (granted : List String) (operation : String) : Prop :=
  ∃ op ∈ granted, normalizeOperation op = wildcard
    ∨ normalizeOperation op = normalizeOperation operation ∧ normalizeOperation operation ≠ ""

/-! ### Operations -/

theorem mem_operationSet {op : String} :
  op ∈ Cache.operationSet granted ↔ op ≠ "" ∧ ∃ g ∈ granted, normalizeOperation g = op
  := by
  rw [Cache.operationSet, Text.mem_sortOnce, List.mem_filter, List.mem_map, and_comm]
  simp

theorem grants_operationSet {operation : String} :
  grants (Cache.operationSet granted) operation = true ↔ Allows granted operation
  := by
  rw [grants, Bool.or_eq_true, List.contains_iff_mem, List.contains_iff_mem, mem_operationSet,
    mem_operationSet]
  constructor
  · rintro (⟨-, g, hg, hall⟩ | ⟨hne, g, hg, hop⟩)
    · exact ⟨g, hg, .inl hall⟩
    · exact ⟨g, hg, .inr ⟨hop, hne⟩⟩
  · rintro ⟨g, hg, hall | ⟨hop, hne⟩⟩
    · exact .inl ⟨by decide, g, hg, hall⟩
    · exact .inr ⟨hne, g, hg, hop⟩

theorem grants_nil (operation : String) :
  grants [] operation = false
  := rfl

/-! ### Lookups -/

namespace Cache

/-- The fresh entry of a subject. -/
def fresh? (c : Cache) (now : Int) (subject : String) : Option Entry :=
  (c.find? subject).filter fun e => now - e.refreshedAt < c.ttl

/-- The cache after the entry of a subject was used, if there is one. -/
def used (c : Cache) (subject : String) : Cache :=
  match c.find? subject with
  | some e => c.touch e
  | none => c

variable {c : Cache} {now : Int} {subject : String}

/-- A lookup is answered by a fresh entry, and by the authority if there is none. -/
theorem operations_eq (c : Cache) (fetcher : Fetcher) (now completed : Int)
    (subject credential : String) :
  c.operations fetcher now completed subject credential
    = match c.fresh? now subject with
      | some e => ⟨e.operations, .hit, c.used subject⟩
      | none => (c.used subject).fetch fetcher completed subject credential
  := by
  unfold operations fresh? used
  cases c.find? subject with
  | none => rfl
  | some e =>
    by_cases hfresh : now - e.refreshedAt < c.ttl
    · simp [hfresh, Option.filter_some]
    · simp [hfresh, Option.filter_some]

theorem mem_of_find? {e : Entry} (h : c.find? subject = some e) :
  e ∈ c.entries ∧ e.subject = subject
  := ⟨List.mem_of_find?_eq_some h, by simpa using List.find?_some h⟩

theorem mem_of_fresh? {e : Entry} (h : c.fresh? now subject = some e) :
  e ∈ c.entries ∧ e.subject = subject ∧ now - e.refreshedAt < c.ttl
  := by
  obtain ⟨hfind, hfresh⟩ := Option.filter_eq_some_iff.mp h
  obtain ⟨hmem, hsubject⟩ := mem_of_find? hfind
  exact ⟨hmem, hsubject, by simpa using hfresh⟩

theorem mem_erase {e : Entry} :
  e ∈ (c.erase subject).entries ↔ e ∈ c.entries ∧ e.subject ≠ subject
  := by
  simp [erase]

theorem mem_of_mem_insert {e e' : Entry} (h : e' ∈ (c.insert e).entries) :
  e' = e ∨ e' ∈ c.entries ∧ e'.subject ≠ e.subject
  := by
  have h := List.mem_of_mem_take h
  rwa [touch, List.mem_cons, mem_erase] at h

theorem used_eq (c : Cache) (subject : String) :
  c.used subject = { c with entries := (c.used subject).entries }
  := by
  unfold used
  split <;> rfl

/-- Using an entry neither adds nor removes one. -/
theorem perm_used (hdistinct : (c.entries.map (·.subject)).Nodup) (subject : String) :
  (c.used subject).entries.Perm c.entries
  := by
  unfold used find?
  cases hfind : c.entries.find? (·.subject = subject) with
  | none => exact .refl _
  | some e =>
    simp only [touch, erase]
    generalize c.entries = entries at hdistinct hfind ⊢
    induction entries with
    | nil => cases hfind
    | cons a entries ih =>
      rw [List.map_cons, List.nodup_cons] at hdistinct
      by_cases ha : a.subject = subject
      · obtain rfl : a = e := by simpa [ha] using hfind
        have hothers : ∀ b ∈ entries, b.subject ≠ a.subject := by
          intro b hb h
          exact hdistinct.1 (h ▸ List.mem_map_of_mem hb)
        rw [List.filter_cons_of_neg (by simp), List.filter_eq_self.mpr (by simpa using hothers)]
      · rw [List.find?_cons_of_neg (by simpa using ha)] at hfind
        have he : e.subject = subject := by simpa using List.find?_some hfind
        rw [List.filter_cons_of_pos (by simpa [he] using ha)]
        exact (List.Perm.swap _ _ _).trans ((ih hdistinct.2 hfind).cons a)

/-- Entries in another order, each subject having one, are found as before. -/
theorem find?_of_perm {c c' : Cache} (hdistinct : (c.entries.map (·.subject)).Nodup)
    (h : c'.entries.Perm c.entries) (subject : String) :
  c'.find? subject = c.find? subject
  := by
  symm
  apply List.find?_eq_find?_of_perm h.symm
  rintro e ⟨he, hsubject⟩ e' ⟨he', hsubject'⟩
  apply List.inj_on_of_nodup_map hdistinct he he'
  rw [of_decide_eq_true hsubject, of_decide_eq_true hsubject']

theorem distinct_erase (hdistinct : (c.entries.map (·.subject)).Nodup) (subject : String) :
  ((c.erase subject).entries.map (·.subject)).Nodup
  := hdistinct.sublist (List.filter_sublist.map _)

theorem distinct_touch (hdistinct : (c.entries.map (·.subject)).Nodup) (e : Entry) :
  ((c.touch e).entries.map (·.subject)).Nodup
  := by
  rw [touch, List.map_cons, List.nodup_cons]
  refine ⟨?_, distinct_erase hdistinct e.subject⟩
  intro h
  obtain ⟨e', he', hsubject⟩ := List.mem_map.mp h
  exact (mem_erase.mp he').2 hsubject

theorem distinct_insert (hdistinct : (c.entries.map (·.subject)).Nodup) (e : Entry) :
  ((c.insert e).entries.map (·.subject)).Nodup
  := (distinct_touch hdistinct e).sublist ((List.take_sublist _ _).map _)

/-- What a lookup can do: a fresh entry answers it and the authority is not asked; or the authority
grants operations, which replace the entry; or it fails, and nothing is granted. -/
theorem lookup_cases (c : Cache) (t : TimedCall) (subject credential : String) :
  (∃ e, c.fresh? t.now subject = some e
      ∧ c.operations t.fetcher t.now t.completed subject credential
        = ⟨e.operations, .hit, c.used subject⟩
      ∧ t.lookupEvents .hit subject credential = [])
    ∨ (∃ granted, t.fetcher subject credential = .ok granted
      ∧ c.operations t.fetcher t.now t.completed subject credential
        = ⟨operationSet granted, .miss,
          (c.used subject).insert ⟨subject, operationSet granted, t.completed⟩⟩
      ∧ t.lookupEvents .miss subject credential = [.fetched subject granted t.completed])
    ∨ c.operations t.fetcher t.now t.completed subject credential = ⟨[], .error, c.used subject⟩
      ∧ t.lookupEvents .error subject credential = [.failed subject]
  := by
  rw [operations_eq]
  cases hfresh : c.fresh? t.now subject with
  | some e => exact .inl ⟨e, rfl, rfl, rfl⟩
  | none =>
    unfold fetch TimedCall.lookupEvents
    cases hfetch : t.fetcher subject credential with
    | ok granted => exact .inr (.inl ⟨granted, rfl, rfl, rfl⟩)
    | error f => exact .inr (.inr ⟨rfl, rfl⟩)

end Cache

/-! ### Entries and the log -/

theorem isStanding_fetched (log : List CacheEvent) (subject : String) (granted : List String)
    (time : Int) :
  IsStanding (.fetched subject granted time :: log) subject granted time
  := ⟨[], ⟨log, rfl, by simp⟩, by simp⟩

theorem IsStanding.cons {log : List CacheEvent} {subject : String} {time : Int}
    (h : IsStanding log subject granted time) {event : CacheEvent}
    (hfetches : event.fetches subject = false) (hdrops : event.drops subject = false) :
  IsStanding (event :: log) subject granted time
  := by
  obtain ⟨since, ⟨earlier, rfl, hlatest⟩, hstands⟩ := h
  refine ⟨event :: since, ⟨earlier, rfl, ?_⟩, ?_⟩
  · exact List.forall_mem_cons.mpr ⟨hfetches, hlatest⟩
  · exact List.forall_mem_cons.mpr ⟨hdrops, hstands⟩

/-- An entry that holds what the latest fetch for its subject granted, not dropped since. -/
def Entry.IsBacked (log : List CacheEvent) (e : Entry) : Prop :=
  ∃ granted, IsStanding log e.subject granted e.refreshedAt
    ∧ e.operations = Cache.operationSet granted

theorem Entry.IsBacked.cons {log : List CacheEvent} {e : Entry} (h : e.IsBacked log)
    {event : CacheEvent} (hfetches : event.fetches e.subject = false)
    (hdrops : event.drops e.subject = false) :
  e.IsBacked (event :: log)
  := by
  obtain ⟨granted, hstanding, hoperations⟩ := h
  exact ⟨granted, hstanding.cons hfetches hdrops, hoperations⟩

namespace CacheRun

/-- A run whose cache holds one entry for a subject at most, each backed by the log. -/
structure IsSound (r : CacheRun) : Prop where
  distinct : (r.cache.entries.map (·.subject)).Nodup
  backed : ∀ e ∈ r.cache.entries, e.IsBacked r.log

variable {r : CacheRun}

theorem IsSound.lookup (h : r.IsSound) (t : TimedCall) (subject credential : String) :
  IsSound ⟨(r.cache.operations t.fetcher t.now t.completed subject credential).cache,
    t.lookupEvents (r.cache.operations t.fetcher t.now t.completed subject credential).result
      subject credential ++ r.log⟩
  := by
  have hperm := Cache.perm_used h.distinct subject
  have hdistinct : ((r.cache.used subject).entries.map (·.subject)).Nodup :=
    (hperm.map _).nodup_iff.mpr h.distinct
  have hbacked : ∀ e ∈ (r.cache.used subject).entries, e.IsBacked r.log :=
    fun e he => h.backed e (hperm.mem_iff.mp he)
  rcases r.cache.lookup_cases t subject credential with
    ⟨e, -, hl, hevents⟩ | ⟨granted, -, hl, hevents⟩ | ⟨hl, hevents⟩
  · rw [hl, hevents]
    exact ⟨hdistinct, hbacked⟩
  · rw [hl, hevents]
    refine ⟨Cache.distinct_insert hdistinct _, ?_⟩
    intro e he
    rcases Cache.mem_of_mem_insert he with rfl | ⟨he, hother⟩
    · exact ⟨granted, isStanding_fetched _ _ _ _, rfl⟩
    · exact (hbacked e he).cons (decide_eq_false hother.symm) rfl
  · rw [hl, hevents]
    exact ⟨hdistinct, fun e he => (hbacked e he).cons rfl rfl⟩

theorem IsSound.next (h : r.IsSound) (t : TimedCall) :
  (r.next t).IsSound
  := by
  unfold CacheRun.next Cache.perform
  cases t.call with
  | allowedOperations subject credential => apply h.lookup t subject credential
  | hasPermission subject operation credential => apply h.lookup t subject credential
  | lookup subject => exact h
  | invalidate subject =>
    refine ⟨Cache.distinct_erase h.distinct subject, ?_⟩
    intro e he
    obtain ⟨he, hother⟩ := Cache.mem_erase.mp he
    exact (h.backed e he).cons rfl (decide_eq_false hother.symm)
  | clear => exact ⟨List.nodup_nil, by simp [Cache.clear]⟩

theorem ofCalls_concat (ttl : Int) (size : Nat) (calls : List TimedCall) (t : TimedCall) :
  ofCalls ttl size (calls ++ [t]) = (ofCalls ttl size calls).next t
  := List.foldl_concat _ _ _ _

theorem isSound_ofCalls (ttl : Int) (size : Nat) (calls : List TimedCall) :
  (ofCalls ttl size calls).IsSound
  := by
  induction calls using List.reverseRecOn with
  | nil => exact ⟨List.nodup_nil, by simp [ofCalls]⟩
  | append_singleton calls t ih =>
    rw [ofCalls_concat]
    apply ih.next

theorem next_cache (r : CacheRun) (t : TimedCall) :
  (r.next t).cache = { r.cache with entries := (r.next t).cache.entries }
  := by
  have hlookup (subject credential : String) :
      (r.cache.operations t.fetcher t.now t.completed subject credential).cache
        = { r.cache with entries :=
            (r.cache.operations t.fetcher t.now t.completed subject credential).cache.entries } := by
    rcases r.cache.lookup_cases t subject credential with ⟨e, -, hl, -⟩ | ⟨granted, -, hl, -⟩ | ⟨hl, -⟩
    · rw [hl]
      apply Cache.used_eq
    · rw [hl, r.cache.used_eq subject]
      rfl
    · rw [hl]
      apply Cache.used_eq
  unfold CacheRun.next Cache.perform
  cases t.call with
  | allowedOperations subject credential => apply hlookup
  | hasPermission subject operation credential => apply hlookup
  | lookup subject => rfl
  | invalidate subject => rfl
  | clear => rfl

theorem ofCalls_cache (ttl : Int) (size : Nat) (calls : List TimedCall) :
  (ofCalls ttl size calls).cache = ⟨ttl, size, (ofCalls ttl size calls).cache.entries⟩
  := by
  induction calls using List.reverseRecOn with
  | nil => rfl
  | append_singleton calls t ih =>
    rw [ofCalls_concat, next_cache, ih]

@[simp]
theorem ttl_ofCalls (ttl : Int) (size : Nat) (calls : List TimedCall) :
  (ofCalls ttl size calls).cache.ttl = ttl
  := by
  rw [ofCalls_cache]

@[simp]
theorem size_ofCalls (ttl : Int) (size : Nat) (calls : List TimedCall) :
  (ofCalls ttl size calls).cache.size = size
  := by
  rw [ofCalls_cache]

variable {t : TimedCall}

/-- A fetch is written down with the time at which its call completed it. -/
theorem time_of_mem_events {c : Cache} {subject : String} {time : Int}
    (h : .fetched subject granted time ∈ (c.perform t).events) :
  time = t.completed
  := by
  have hlookup {result : LookupResult} {s credential : String}
      (h : .fetched subject granted time ∈ t.lookupEvents result s credential) :
      time = t.completed := by
    unfold TimedCall.lookupEvents at h
    split at h
    · cases h
    · obtain ⟨-, -, rfl⟩ := List.mem_singleton.mp h
      rfl
    · cases List.mem_singleton.mp h
  unfold Cache.perform at h
  cases hcall : t.call with
  | allowedOperations s credential =>
    rw [hcall] at h
    apply hlookup h
  | hasPermission s operation credential =>
    rw [hcall] at h
    apply hlookup h
  | lookup s =>
    rw [hcall] at h
    cases h
  | invalidate s =>
    rw [hcall] at h
    cases List.mem_singleton.mp h
  | clear =>
    rw [hcall] at h
    cases List.mem_singleton.mp h

theorem exists_call_of_mem_log {ttl : Int} {size : Nat} {calls : List TimedCall} {subject : String}
    {time : Int} (h : .fetched subject granted time ∈ (ofCalls ttl size calls).log) :
  ∃ t ∈ calls, t.completed = time
  := by
  induction calls using List.reverseRecOn with
  | nil => cases h
  | append_singleton calls t ih =>
    rw [ofCalls_concat, CacheRun.next, List.mem_append] at h
    rcases h with h | h
    · exact ⟨t, by simp, (time_of_mem_events h).symm⟩
    · obtain ⟨u, hu, htime⟩ := ih h
      exact ⟨u, List.mem_append_left [t] hu, htime⟩

/-- In a sound run, a permission is granted only by the latest fetch for the subject. -/
theorem IsSound.fetch_of_permission {subject operation credential : String} (h : r.IsSound)
    (hpast : ∀ s granted time, .fetched s granted time ∈ r.log → time ≤ t.now)
    (hcall : t.call = .hasPermission subject operation credential)
    (hanswer : (r.cache.perform t).answer = .permission true) :
  ∃ granted time since, IsLatestFetch (r.next t).log subject granted time since
    ∧ ((r.cache.perform t).events = [.fetched subject granted time]
      ∨ (time ≤ t.now ∧ t.now < time + r.cache.ttl)
        ∧ ∀ event ∈ since, event.drops subject = false)
    ∧ Allows granted operation
  := by
  simp only [CacheRun.next, Cache.perform, hcall, Cache.hasPermission, CacheAnswer.permission.injEq]
    at hanswer ⊢
  rcases r.cache.lookup_cases t subject credential with
    ⟨e, hfresh, hl, hevents⟩ | ⟨granted, -, hl, hevents⟩ | ⟨hl, -⟩
  · rw [hl] at hanswer
    rw [hl, hevents]
    obtain ⟨he, rfl, hage⟩ := Cache.mem_of_fresh? hfresh
    obtain ⟨granted, ⟨since, ⟨earlier, hlog, hlatest⟩, hstands⟩, hoperations⟩ := h.backed e he
    have htime : e.refreshedAt ≤ t.now := by
      apply hpast e.subject granted
      simp [hlog]
    refine ⟨granted, e.refreshedAt, since, ⟨earlier, hlog, hlatest⟩, ?_, ?_⟩
    · exact .inr ⟨⟨htime, by omega⟩, hstands⟩
    · rw [hoperations] at hanswer
      apply grants_operationSet.mp hanswer
  · rw [hl] at hanswer
    rw [hl, hevents]
    refine ⟨granted, t.completed, [], ⟨r.log, rfl, by simp⟩, .inl rfl, ?_⟩
    apply grants_operationSet.mp hanswer
  · rw [hl, grants_nil] at hanswer
    cases hanswer

/-- The events of a lookup tell of a failure only if nothing was granted and only the entry of the
subject was used. -/
theorem lookup_of_failed {c : Cache} {s subject credential : String}
    (h : .failed s ∈ t.lookupEvents
      (c.operations t.fetcher t.now t.completed subject credential).result subject credential) :
  c.operations t.fetcher t.now t.completed subject credential = ⟨[], .error, c.used subject⟩
  := by
  rcases c.lookup_cases t subject credential with
    ⟨e, -, hl, hevents⟩ | ⟨granted, -, hl, hevents⟩ | ⟨hl, -⟩
  · rw [hl, hevents] at h
    cases h
  · rw [hl, hevents] at h
    cases List.mem_singleton.mp h
  · exact hl

/-- In a sound run, a fetch that fails grants nothing and leaves every entry as it is. -/
theorem IsSound.unchanged_of_failed {s : String} (h : r.IsSound)
    (hfailed : .failed s ∈ (r.cache.perform t).events) :
  (r.cache.perform t).answer.isBarren = true
    ∧ (r.cache.perform t).cache.entries.Perm r.cache.entries
  := by
  unfold Cache.perform at hfailed ⊢
  cases hcall : t.call with
  | allowedOperations subject credential =>
    rw [hcall] at hfailed
    simp only [lookup_of_failed hfailed]
    exact ⟨rfl, Cache.perm_used h.distinct subject⟩
  | hasPermission subject operation credential =>
    rw [hcall] at hfailed
    simp only [Cache.hasPermission, lookup_of_failed hfailed]
    exact ⟨rfl, Cache.perm_used h.distinct subject⟩
  | lookup subject =>
    rw [hcall] at hfailed
    cases hfailed
  | invalidate subject =>
    rw [hcall] at hfailed
    cases List.mem_singleton.mp hfailed
  | clear =>
    rw [hcall] at hfailed
    cases List.mem_singleton.mp hfailed

end CacheRun

/-! ### Permissions over whole runs -/

/-- A permission is granted only by the latest fetch for the subject. This fetch is made by the
call itself, or it was completed less than the time to live ago and nothing has dropped it since;
and it grants the operation or all operations. A fetch that fails grants nothing, and it leaves
every entry as it is. -/
theorem hasPermission_backed
    {ttl : Int} {size : Nat} {calls : List TimedCall} {t : TimedCall}
    (hclock : InOrder (calls ++ [t])) :
  let r := CacheRun.ofCalls ttl size calls
  (∀ subject operation credential, t.call = .hasPermission subject operation credential →
    (r.cache.perform t).answer = .permission true →
    ∃ granted time since, IsLatestFetch (r.next t).log subject granted time since
      ∧ ((r.cache.perform t).events = [.fetched subject granted time]
        ∨ (time ≤ t.now ∧ t.now < time + ttl) ∧ ∀ event ∈ since, event.drops subject = false)
      ∧ Allows granted operation)
    ∧ ∀ subject, .failed subject ∈ (r.cache.perform t).events →
      (r.cache.perform t).answer.isBarren = true
        ∧ (r.cache.perform t).cache.entries.Perm r.cache.entries
        ∧ ∀ s, (r.cache.perform t).cache.find? s = r.cache.find? s
  := by
  intro r
  have hsound : r.IsSound := CacheRun.isSound_ofCalls ttl size calls
  have httl : r.cache.ttl = ttl := CacheRun.ttl_ofCalls ttl size calls
  have hpast : ∀ s granted time, .fetched s granted time ∈ r.log → time ≤ t.now := by
    intro s granted time h
    obtain ⟨u, hu, rfl⟩ := CacheRun.exists_call_of_mem_log h
    exact (List.pairwise_append.mp hclock).2.2 u hu t List.mem_cons_self
  constructor
  · intro subject operation credential hcall hanswer
    rw [← httl]
    apply hsound.fetch_of_permission hpast hcall hanswer
  · intro subject hfailed
    obtain ⟨hbarren, hperm⟩ := hsound.unchanged_of_failed hfailed
    exact ⟨hbarren, hperm, Cache.find?_of_perm hsound.distinct hperm⟩

/-- An authority that knows one credential. -/
def strictAuthority : Fetcher := fun _ credential =>
  if credential = "first" then .ok [" Select "] else .error (.plain "unknown credential")

/-- A fetch for one subject, and a call that drops another one. -/
def sampleCalls : List TimedCall :=
  [⟨.hasPermission "alice" "select" "first", strictAuthority, 0, 1⟩,
   ⟨.invalidate "bob", strictAuthority, 2, 2⟩]

theorem hasPermission_backed_sampleCalls :
  let t : TimedCall := ⟨.hasPermission "alice" "SELECT" "first", strictAuthority, 5, 6⟩
  let r := CacheRun.ofCalls 5 1 sampleCalls
  InOrder (sampleCalls ++ [t]) ∧ (r.cache.perform t).answer = .permission true
    ∧ ∃ granted time since, IsLatestFetch (r.next t).log "alice" granted time since
      ∧ ((r.cache.perform t).events = [.fetched "alice" granted time]
        ∨ (time ≤ t.now ∧ t.now < time + 5) ∧ ∀ event ∈ since, event.drops "alice" = false)
      ∧ Allows granted "SELECT"
  := by
  intro t r
  have hclock : InOrder (sampleCalls ++ [t]) := by
    simp [InOrder, sampleCalls, t]
  have hanswer : (r.cache.perform t).answer = .permission true := by
    rfl
  exact ⟨hclock, hanswer, (hasPermission_backed hclock).1 "alice" "SELECT" "first" rfl hanswer⟩

end CqlGateway.Permission

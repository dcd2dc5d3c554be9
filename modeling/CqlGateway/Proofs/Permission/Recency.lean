import CqlGateway.Proofs.Permission.History
import Mathlib.Data.List.Dedup
import Mathlib.Data.List.Perm.Subperm

/-!
# Recency in the permission cache

The entries of the cache stand in the order in which their subjects were looked up. So the entries
in front of an entry belong to subjects that were looked up later than its own. As long as these
are fewer than the subjects that the cache keeps, the entry does not have to make room, and the next
lookup of its subject finds it.
-/

namespace CqlGateway.Permission

variable {subject : String}

/-- The subject that a call looks up. Looking at an entry without using it does not count. -/
def CacheCall.subject? : CacheCall → Option String
  | .allowedOperations subject _ | .hasPermission subject _ _ => some subject
  | .lookup _ | .invalidate _ | .clear => none

/-- What a call answers that looks up a subject with the given operations. -/
def CacheCall.answer (operations : List String) : CacheCall → CacheAnswer
  | .allowedOperations _ _ => .operations operations
  | .hasPermission _ operation _ => .permission (grants operations operation)
  | .lookup _ | .invalidate _ | .clear => .done

/-- A call neither looks up a subject nor drops it. -/
def CacheCall.Spares (subject : String) (call : CacheCall) : Prop :=
  call.subject? ≠ some subject ∧ call ≠ .invalidate subject ∧ call ≠ .clear

/-- A call is answered from a fetch for a subject: it is made by the call, or the authority is not
asked and it is the latest one. -/
def CacheRun.AnsweredFrom (r : CacheRun) (t : TimedCall) (subject : String) (granted : List String)
    (time : Int) : Prop :=
  (r.cache.perform t).events = [.fetched subject granted time]
    ∨ (r.cache.perform t).events = [] ∧ ∃ since, IsLatestFetch r.log subject granted time since

theorem IsLatestFetch.find? {log : List CacheEvent} {granted : List String} {time : Int}
    {since : List CacheEvent} (h : IsLatestFetch log subject granted time since) :
  log.find? (·.fetches subject) = some (.fetched subject granted time)
  := by
  obtain ⟨earlier, rfl, hsince⟩ := h
  have hnone : since.find? (·.fetches subject) = none := by
    rw [List.find?_eq_none]
    intro event hevent
    rw [hsince event hevent]
    exact Bool.false_ne_true
  rw [List.find?_append, hnone, Option.none_or]
  apply List.find?_cons_of_pos
  exact decide_eq_true rfl

namespace Cache

theorem perform_lookup (c : Cache) {t : TimedCall} (h : t.call.subject? = some subject) :
  ∃ credential,
    let l := c.operations t.fetcher t.now t.completed subject credential
    c.perform t
      = ⟨t.call.answer l.operations, l.cache, t.lookupEvents l.result subject credential⟩
  := by
  unfold perform
  cases hcall : t.call with
  | allowedOperations s credential =>
    rw [hcall] at h
    cases h
    exact ⟨credential, rfl⟩
  | hasPermission s operation credential =>
    rw [hcall] at h
    cases h
    exact ⟨credential, rfl⟩
  | lookup s =>
    rw [hcall] at h
    cases h
  | invalidate s =>
    rw [hcall] at h
    cases h
  | clear =>
    rw [hcall] at h
    cases h

theorem perform_other (c : Cache) {t : TimedCall} (h : t.call.subject? = none) :
  (∃ s, t.call = .lookup s ∧ c.perform t = ⟨.entry (c.find? s), c, []⟩)
    ∨ (∃ s, t.call = .invalidate s ∧ c.perform t = ⟨.done, c.erase s, [.invalidated s]⟩)
    ∨ t.call = .clear ∧ c.perform t = ⟨.done, c.clear, [.cleared]⟩
  := by
  unfold perform
  cases hcall : t.call with
  | allowedOperations s credential =>
    rw [hcall] at h
    cases h
  | hasPermission s operation credential =>
    rw [hcall] at h
    cases h
  | lookup s => exact .inl ⟨s, rfl, rfl⟩
  | invalidate s => exact .inr (.inl ⟨s, rfl, rfl⟩)
  | clear => exact .inr (.inr ⟨rfl, rfl⟩)

/-! ### Entries that are kept -/

/-- A cache keeps an entry, and the entries in front of it are for some other subjects. -/
def Keeps (c : Cache) (others : List String) (e : Entry) : Prop :=
  ∃ front back, c.entries = front ++ e :: back ∧ ∀ a ∈ front, a.subject ∈ others

variable {c : Cache} {others : List String} {e : Entry}

theorem Keeps.erase (h : c.Keeps others e) (hother : subject ≠ e.subject) :
  (c.erase subject).Keeps others e
  := by
  obtain ⟨front, back, hentries, hfront⟩ := h
  refine ⟨front.filter (·.subject ≠ subject), back.filter (·.subject ≠ subject), ?_, ?_⟩
  · change c.entries.filter (·.subject ≠ subject) = _
    rw [hentries, List.filter_append, List.filter_cons_of_pos (by simpa using hother.symm)]
  · intro a ha
    exact hfront a (List.mem_of_mem_filter ha)

theorem Keeps.touch (h : c.Keeps others e) {a : Entry} (hother : a.subject ≠ e.subject)
    (ha : a.subject ∈ others) :
  (c.touch a).Keeps others e
  := by
  obtain ⟨front, back, hentries, hfront⟩ := h.erase hother
  refine ⟨a :: front, back, ?_, List.forall_mem_cons.mpr ⟨ha, hfront⟩⟩
  rw [Cache.touch, hentries, List.cons_append]

theorem Keeps.used (h : c.Keeps others e) (hother : subject ≠ e.subject)
    (hsubject : subject ∈ others) :
  (c.used subject).Keeps others e
  := by
  unfold Cache.used
  split
  next a ha =>
    obtain ⟨-, rfl⟩ := mem_of_find? ha
    exact h.touch hother hsubject
  next => exact h

/-- The entries in front of an entry are too few for it to make room. -/
theorem Keeps.insert (h : c.Keeps others e) (hdistinct : (c.entries.map (·.subject)).Nodup)
    (hfew : others.dedup.length < c.size) {a : Entry} (hother : a.subject ≠ e.subject)
    (ha : a.subject ∈ others) :
  (c.insert a).Keeps others e
  := by
  obtain ⟨front, back, hentries, hfront⟩ := h.touch hother ha
  have hnodup : (front.map (·.subject)).Nodup := by
    have htouch := distinct_touch hdistinct a
    rw [hentries, List.map_append] at htouch
    exact (List.nodup_append.mp htouch).1
  have hsubset : front.map (·.subject) ⊆ others.dedup := by
    intro s hs
    obtain ⟨b, hb, rfl⟩ := List.mem_map.mp hs
    exact List.mem_dedup.mpr (hfront b hb)
  have hlength := (hnodup.subperm hsubset).length_le
  rw [List.length_map] at hlength
  obtain ⟨room, hroom⟩ : ∃ room, c.size = front.length + (room + 1) :=
    ⟨c.size - front.length - 1, by omega⟩
  refine ⟨front, back.take room, ?_, hfront⟩
  rw [Cache.insert, hentries, hroom, List.take_length_add_append, List.take_succ_cons]

/-- A fresh entry that is kept answers a lookup, and the authority is not asked. -/
theorem Keeps.perform (h : c.Keeps others e) (hothers : e.subject ∉ others) {t : TimedCall}
    (ht : t.call.subject? = some e.subject) (hfresh : t.now - e.refreshedAt < c.ttl) :
  (c.perform t).events = [] ∧ (c.perform t).answer = t.call.answer e.operations
  := by
  obtain ⟨front, back, hentries, hfront⟩ := h
  have hnone : front.find? (·.subject = e.subject) = none := by
    rw [List.find?_eq_none]
    intro a ha heq
    exact hothers (of_decide_eq_true heq ▸ hfront a ha)
  have hfind : c.find? e.subject = some e := by
    rw [find?, hentries, List.find?_append, hnone, Option.none_or]
    exact List.find?_cons_of_pos (decide_eq_true rfl)
  have hfound : c.fresh? t.now e.subject = some e := by
    rw [fresh?, hfind]
    exact Option.filter_some_pos (decide_eq_true hfresh)
  obtain ⟨credential, hperform⟩ := c.perform_lookup ht
  rw [hperform, operations_eq, hfound]
  exact ⟨rfl, rfl⟩

end Cache

/-! ### Runs -/

namespace CacheRun

variable {r : CacheRun}

/-- The entry of a lookup that was answered stands in front of all others. -/
theorem IsSound.keeps_of_answeredFrom (h : r.IsSound) (hsize : 0 < r.cache.size) {t : TimedCall}
    (ht : t.call.subject? = some subject) {granted : List String} {time : Int}
    (hfetch : r.AnsweredFrom t subject granted time) :
  (r.cache.perform t).answer = t.call.answer (Cache.operationSet granted)
    ∧ ∀ others, (r.next t).cache.Keeps others ⟨subject, Cache.operationSet granted, time⟩
  := by
  obtain ⟨credential, hperform⟩ := r.cache.perform_lookup ht
  unfold AnsweredFrom at hfetch
  unfold CacheRun.next
  rw [hperform] at hfetch ⊢
  rcases r.cache.lookup_cases t subject credential with
    ⟨e, hfresh, hl, hevents⟩ | ⟨granted', -, hl, hevents⟩ | ⟨hl, hevents⟩
  · rw [hl, hevents] at hfetch
    rw [hl]
    rcases hfetch with hfetch | ⟨-, since, hlatest⟩
    · cases hfetch
    · obtain ⟨he, rfl, -⟩ := Cache.mem_of_fresh? hfresh
      obtain ⟨granted', ⟨since', hstanding, -⟩, hoperations⟩ := h.backed e he
      have hsame := hlatest.find?.symm.trans hstanding.find?
      cases hsame
      have hfind := (Option.filter_eq_some_iff.mp hfresh).1
      refine ⟨by rw [hoperations], fun others => ⟨[], (r.cache.erase e.subject).entries, ?_, ?_⟩⟩
      · rw [← hoperations]
        simp only [Cache.used, hfind]
        rfl
      · simp
  · rw [hl, hevents] at hfetch
    rw [hl]
    rcases hfetch with hfetch | ⟨hfetch, -⟩
    · cases hfetch
      refine ⟨rfl, fun others => ?_⟩
      rw [← (congrArg Cache.size (r.cache.used_eq subject))] at hsize
      obtain ⟨room, hroom⟩ := Nat.exists_eq_add_one.mpr hsize
      refine ⟨[], (((r.cache.used subject).erase subject).entries).take room, ?_, by simp⟩
      rw [Cache.insert, hroom]
      rfl
    · cases hfetch
  · rw [hl, hevents] at hfetch
    rcases hfetch with hfetch | ⟨hfetch, -⟩
    · cases hfetch
    · cases hfetch

/-- A call that looks up some other subject, or none, keeps an entry. -/
theorem IsSound.keeps_next (h : r.IsSound) {others : List String} {e : Entry}
    (hkeeps : r.cache.Keeps others e) (hfew : others.dedup.length < r.cache.size) {t : TimedCall}
    (hothers : ∀ s, t.call.subject? = some s → s ∈ others) (hspares : t.call.Spares e.subject) :
  (r.next t).cache.Keeps others e
  := by
  obtain ⟨hsubject, hinvalidate, hclear⟩ := hspares
  unfold CacheRun.next
  cases hs : t.call.subject? with
  | some s =>
    have hother : s ≠ e.subject := by
      rintro rfl
      exact hsubject hs
    have hused := hkeeps.used hother (hothers s hs)
    obtain ⟨credential, hperform⟩ := r.cache.perform_lookup hs
    rw [hperform]
    rcases r.cache.lookup_cases t s credential with
      ⟨a, -, hl, -⟩ | ⟨granted, -, hl, -⟩ | ⟨hl, -⟩
    · rwa [hl]
    · rw [hl]
      have hdistinct := ((Cache.perm_used h.distinct s).map (·.subject)).nodup_iff.mpr h.distinct
      rw [← (congrArg Cache.size (r.cache.used_eq s))] at hfew
      exact hused.insert hdistinct hfew hother (hothers s hs)
    · rwa [hl]
  | none =>
    rcases r.cache.perform_other hs with
      ⟨s, -, hperform⟩ | ⟨s, hcall, hperform⟩ | ⟨hcall, -⟩
    · rwa [hperform]
    · rw [hperform]
      apply hkeeps.erase
      rintro rfl
      exact hinvalidate hcall
    · exact absurd hcall hclear

theorem keeps_ofCalls
    {ttl : Int} {size : Nat} {calls since : List TimedCall} {others : List String} {e : Entry}
    (h : (ofCalls ttl size calls).cache.Keeps others e) (hfew : others.dedup.length < size)
    (hothers : ∀ t ∈ since, ∀ s, t.call.subject? = some s → s ∈ others)
    (hspares : ∀ t ∈ since, t.call.Spares e.subject) :
  (ofCalls ttl size (calls ++ since)).cache.Keeps others e
  := by
  induction since using List.reverseRecOn with
  | nil => rwa [List.append_nil]
  | append_singleton since t ih =>
    rw [List.forall_mem_append] at hothers hspares
    rw [← List.append_assoc, ofCalls_concat]
    apply (isSound_ofCalls ttl size (calls ++ since)).keeps_next
    · exact ih hothers.1 hspares.1
    · rwa [size_ofCalls]
    · exact hothers.2 t List.mem_cons_self
    · exact hspares.2 t List.mem_cons_self

/-- A fetch that fails for a subject without an entry changes nothing. -/
theorem cache_of_failed {t : TimedCall} (hfailed : .failed subject ∈ (r.cache.perform t).events)
    (hnone : r.cache.find? subject = none) :
  (r.cache.perform t).cache = r.cache
  := by
  cases hs : t.call.subject? with
  | some s =>
    obtain ⟨credential, hperform⟩ := r.cache.perform_lookup hs
    rw [hperform] at hfailed ⊢
    rcases r.cache.lookup_cases t s credential with
      ⟨a, -, hl, hevents⟩ | ⟨granted, -, hl, hevents⟩ | ⟨hl, hevents⟩
    · rw [hl, hevents] at hfailed
      cases hfailed
    · rw [hl, hevents] at hfailed
      cases List.mem_singleton.mp hfailed
    · rw [hl, hevents] at hfailed
      cases List.mem_singleton.mp hfailed
      simp only [hl, Cache.used, hnone]
  | none =>
    rcases r.cache.perform_other hs with ⟨s, -, hperform⟩ | ⟨s, -, hperform⟩ | ⟨-, hperform⟩
    · rw [hperform]
    · rw [hperform] at hfailed
      cases List.mem_singleton.mp hfailed
    · rw [hperform] at hfailed
      cases List.mem_singleton.mp hfailed

theorem IsSound.length_next_le (h : r.IsSound) (hsize : r.cache.entries.length ≤ r.cache.size)
    (t : TimedCall) :
  (r.next t).cache.entries.length ≤ r.cache.size
  := by
  unfold CacheRun.next
  cases hs : t.call.subject? with
  | some s =>
    obtain ⟨credential, hperform⟩ := r.cache.perform_lookup hs
    have hused := (Cache.perm_used h.distinct s).length_eq
    rw [← hused] at hsize
    rw [hperform]
    rcases r.cache.lookup_cases t s credential with
      ⟨a, -, hl, -⟩ | ⟨granted, -, hl, -⟩ | ⟨hl, -⟩
    · rwa [hl]
    · rw [hl, r.cache.used_eq s]
      apply List.length_take_le
    · rwa [hl]
  | none =>
    rcases r.cache.perform_other hs with ⟨s, -, hperform⟩ | ⟨s, -, hperform⟩ | ⟨-, hperform⟩
    · rwa [hperform]
    · rw [hperform]
      exact le_trans (List.length_filter_le _ _) hsize
    · rw [hperform]
      apply Nat.zero_le

theorem length_ofCalls_le (ttl : Int) (size : Nat) (calls : List TimedCall) :
  (ofCalls ttl size calls).cache.entries.length ≤ size
  := by
  induction calls using List.reverseRecOn with
  | nil => apply Nat.zero_le
  | append_singleton calls t ih =>
    have hnext := (isSound_ofCalls ttl size calls).length_next_le (t := t)
    rw [size_ofCalls] at hnext
    rw [ofCalls_concat]
    exact hnext ih

end CacheRun

/-- A subject is looked up and the answer is from a fetch, made by this lookup or earlier. As long
as the subject is neither looked up nor dropped and fewer other subjects are looked up than the
cache keeps, the next lookup before the time to live is over is answered from the same fetch, and
the authority is not asked. Looking at an entry changes nothing, and neither does a fetch that
fails for a subject without an entry. The cache never holds more subjects than it keeps. -/
theorem lookup_answered_again (ttl : Int) (size : Nat) (calls : List TimedCall) (t : TimedCall) :
  let r := CacheRun.ofCalls ttl size calls
  (∀ before u since subject granted time, calls = before ++ u :: since →
    u.call.subject? = some subject →
    (CacheRun.ofCalls ttl size before).AnsweredFrom u subject granted time →
    (∀ v ∈ since, v.call.Spares subject) →
    (since.filterMap (·.call.subject?)).dedup.length < size →
    t.call.subject? = some subject → t.now < time + ttl →
    ((CacheRun.ofCalls ttl size before).cache.perform u).answer
        = u.call.answer (Cache.operationSet granted)
      ∧ (r.cache.perform t).answer = t.call.answer (Cache.operationSet granted)
      ∧ (r.cache.perform t).events = [])
    ∧ (∀ subject, t.call = .lookup subject → (r.cache.perform t).cache = r.cache)
    ∧ (∀ subject, .failed subject ∈ (r.cache.perform t).events →
      r.cache.find? subject = none → (r.cache.perform t).cache = r.cache)
    ∧ r.cache.entries.length ≤ size
  := by
  intro r
  refine ⟨?_, ?_, fun subject => CacheRun.cache_of_failed, CacheRun.length_ofCalls_le ttl size calls⟩
  · intro before u since subject granted time hcalls hu hfetch hspares hfew ht hage
    have hsize : 0 < (CacheRun.ofCalls ttl size before).cache.size := by
      rw [CacheRun.size_ofCalls]
      exact Nat.zero_lt_of_lt hfew
    obtain ⟨hanswer, hfront⟩ :=
      (CacheRun.isSound_ofCalls ttl size before).keeps_of_answeredFrom hsize hu hfetch
    rw [← CacheRun.ofCalls_concat] at hfront
    have hkeeps := CacheRun.keeps_ofCalls (hfront (since.filterMap (·.call.subject?))) hfew
      (fun v hv s hs => List.mem_filterMap.mpr ⟨v, hv, hs⟩) hspares
    rw [List.append_assoc, List.singleton_append, ← hcalls] at hkeeps
    have hothers : subject ∉ since.filterMap (·.call.subject?) := by
      intro hmem
      obtain ⟨v, hv, hs⟩ := List.mem_filterMap.mp hmem
      exact (hspares v hv).1 hs
    have hfresh : t.now - time < r.cache.ttl := by
      rw [CacheRun.ttl_ofCalls]
      omega
    obtain ⟨hevents, hagain⟩ := hkeeps.perform hothers ht hfresh
    exact ⟨hanswer, hagain, hevents⟩
  · intro subject hcall
    simp only [Cache.perform, hcall]

/-- Alice is looked up twice, then Bob and Carol, for whom the authority refuses to answer. -/
def mixedCalls : List TimedCall :=
  [⟨.allowedOperations "alice" "first", strictAuthority, 0, 1⟩,
   ⟨.hasPermission "alice" "drop" "second", strictAuthority, 1, 2⟩,
   ⟨.allowedOperations "bob" "first", strictAuthority, 2, 3⟩,
   ⟨.hasPermission "carol" "select" "second", strictAuthority, 3, 4⟩,
   ⟨.invalidate "bob", strictAuthority, 4, 4⟩]

theorem lookup_answered_again_mixedCalls :
  let t : TimedCall := ⟨.hasPermission "alice" "SELECT" "second", strictAuthority, 5, 6⟩
  let r := CacheRun.ofCalls 5 3 mixedCalls
  (r.cache.perform t).answer = .permission true ∧ (r.cache.perform t).events = []
    ∧ r.cache.entries.length ≤ 3
  := by
  intro t r
  obtain ⟨hlookup, -, -, hlength⟩ := lookup_answered_again 5 3 mixedCalls t
  obtain ⟨-, hanswer, hevents⟩ := hlookup [mixedCalls.head (by decide)] _ _ "alice" [" Select "] 1
    rfl rfl (.inr ⟨rfl, [], [], rfl, by simp⟩) (by simp [CacheCall.Spares, CacheCall.subject?])
    (by decide) rfl (by decide)
  exact ⟨hanswer.trans rfl, hevents, hlength⟩

end CqlGateway.Permission

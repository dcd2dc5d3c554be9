import CqlGateway.Catalog.Difference
import CqlGateway.Proofs.Text.Sorted
import Mathlib.Data.List.Nodup

/-!
# Changes between lists

The changes between two lists whose items are matched by key: a change is found exactly if the last
items of its key differ in the way that it says. Where no key occurs twice, the last item of a key
is the only one.
-/

namespace CqlGateway

variable {α : Type} {key : α → String} {equal : α → α → Bool} {old new : List α}
  {a : α} {items : List α} {k : String}

/-! ### The last item of a key -/

theorem mem_of_lastOf? (h : lastOf? key k items = some a) :
  a ∈ items ∧ key a = k
  := by
  have hmem := List.mem_of_find?_eq_some h
  have hkey := List.find?_some h
  exact ⟨List.mem_reverse.mp hmem, by simpa using hkey⟩

theorem lastOf?_eq_none :
  lastOf? key k items = none ↔ ∀ a ∈ items, key a ≠ k
  := by
  simp [lastOf?, List.find?_eq_none]

theorem exists_lastOf? (ha : a ∈ items) (hk : key a = k) :
  ∃ b, lastOf? key k items = some b
  := by
  rw [← Option.ne_none_iff_exists', Ne, lastOf?_eq_none]
  intro h
  exact h a ha hk

theorem lastOf?_eq_some (hnodup : (items.map key).Nodup) :
  lastOf? key k items = some a ↔ a ∈ items ∧ key a = k
  := by
  constructor
  · apply mem_of_lastOf?
  · rintro ⟨ha, hk⟩
    obtain ⟨b, hb⟩ := exists_lastOf? ha hk
    obtain ⟨hmem, hkey⟩ := mem_of_lastOf? hb
    rw [hb, List.inj_on_of_nodup_map hnodup hmem ha (hkey.trans hk.symm)]

theorem mem_keysOf :
  k ∈ keysOf key items ↔ ∃ a ∈ items, key a = k
  := by
  rw [keysOf, Text.mem_sortOnce, List.mem_map]

theorem mem_keysOf_of_lastOf? (h : lastOf? key k items = some a) :
  k ∈ keysOf key items
  := Iff.mpr mem_keysOf ⟨a, mem_of_lastOf? h⟩

/-! ### Changes -/

/-- Whether the last items of a key differ in the way that a change says. -/
def Change.Holds (key : α → String) (equal : α → α → Bool) (old new : List α) : Change α → Prop
  | .dropped k o => lastOf? key k old = some o ∧ lastOf? key k new = none
  | .added k n => lastOf? key k old = none ∧ lastOf? key k new = some n
  | .modified k o n =>
    lastOf? key k old = some o ∧ lastOf? key k new = some n ∧ equal o n = false

theorem mem_changes {c : Change α} :
  c ∈ changes key equal old new ↔ c.Holds key equal old new
  := by
  simp only [changes, List.mem_append, List.mem_filterMap]
  constructor
  · rintro ((⟨k, -, h⟩ | ⟨k, -, h⟩) | ⟨k, -, h⟩)
    · split at h
      next ho hn =>
        cases h
        exact ⟨ho, hn⟩
      next => cases h
    · split at h
      next ho hn =>
        cases h
        exact ⟨ho, hn⟩
      next => cases h
    · split at h
      next ho hn =>
        split at h
        next => cases h
        next hequal =>
          cases h
          exact ⟨ho, hn, by simpa using hequal⟩
      next => cases h
  · intro h
    cases c with
    | dropped k o =>
      refine .inl (.inl ⟨k, mem_keysOf_of_lastOf? h.1, ?_⟩)
      simp [h.1, h.2]
    | added k n =>
      refine .inl (.inr ⟨k, mem_keysOf_of_lastOf? h.2, ?_⟩)
      simp [h.1, h.2]
    | modified k o n =>
      refine .inr ⟨k, mem_keysOf_of_lastOf? h.2.1, ?_⟩
      simp [h.1, h.2.1, h.2.2]

theorem eq_lastOf?_of_mem_changes {c : Change α} (h : c ∈ changes key equal old new) :
  c.old? = lastOf? key c.name old ∧ c.new? = lastOf? key c.name new
  := by
  have hholds := Iff.mp mem_changes h
  cases c with
  | dropped k o => exact ⟨hholds.1.symm, hholds.2.symm⟩
  | added k n => exact ⟨hholds.1.symm, hholds.2.symm⟩
  | modified k o n => exact ⟨hholds.1.symm, hholds.2.1.symm⟩

theorem equal_of_mem_changes {c : Change α} {b : α} (h : c ∈ changes key equal old new)
    (ha : c.old? = some a) (hb : c.new? = some b) :
  equal a b = false
  := by
  have hholds := Iff.mp mem_changes h
  cases c with
  | dropped => cases hb
  | added => cases ha
  | modified k o n =>
    cases ha
    cases hb
    exact hholds.2.2

theorem mem_old :
  a ∈ (changes key equal old new).filterMap Change.old?
    ↔ ∃ k, lastOf? key k old = some a
      ∧ ∀ b, lastOf? key k new = some b → equal a b = false
  := by
  rw [List.mem_filterMap]
  constructor
  · rintro ⟨c, hc, ha⟩
    obtain ⟨hold, hnew⟩ := eq_lastOf?_of_mem_changes hc
    exact ⟨c.name, hold.symm.trans ha, fun b hb => equal_of_mem_changes hc ha (hnew.trans hb)⟩
  · rintro ⟨k, ha, hequal⟩
    cases hb : lastOf? key k new with
    | none => exact ⟨.dropped k a, Iff.mpr mem_changes ⟨ha, hb⟩, rfl⟩
    | some b => exact ⟨.modified k a b, Iff.mpr mem_changes ⟨ha, hb, hequal b hb⟩, rfl⟩

theorem mem_new :
  a ∈ (changes key equal old new).filterMap Change.new?
    ↔ ∃ k, lastOf? key k new = some a
      ∧ ∀ b, lastOf? key k old = some b → equal b a = false
  := by
  rw [List.mem_filterMap]
  constructor
  · rintro ⟨c, hc, ha⟩
    obtain ⟨hold, hnew⟩ := eq_lastOf?_of_mem_changes hc
    exact ⟨c.name, hnew.symm.trans ha, fun b hb => equal_of_mem_changes hc (hold.trans hb) ha⟩
  · rintro ⟨k, ha, hequal⟩
    cases hb : lastOf? key k old with
    | none => exact ⟨.added k a, Iff.mpr mem_changes ⟨hb, ha⟩, rfl⟩
    | some b => exact ⟨.modified k b a, Iff.mpr mem_changes ⟨hb, ha, hequal b hb⟩, rfl⟩

namespace Change

variable {c : Change α}

theorem mem_of_old? (hc : c ∈ changes key equal old new) (ha : c.old? = some a) :
  a ∈ old
  := by
  obtain ⟨k, hlast, -⟩ := Iff.mp mem_old (List.mem_filterMap.mpr ⟨c, hc, ha⟩)
  exact (mem_of_lastOf? hlast).1

theorem mem_of_new? (hc : c ∈ changes key equal old new) (ha : c.new? = some a) :
  a ∈ new
  := by
  obtain ⟨k, hlast, -⟩ := Iff.mp mem_new (List.mem_filterMap.mpr ⟨c, hc, ha⟩)
  exact (mem_of_lastOf? hlast).1

/-- A change has the key of the part that it is about. -/
theorem exists_key_eq_name (hc : c ∈ changes key equal old new) :
  ∃ a ∈ old ++ new, key a = c.name
  := by
  have hholds := Iff.mp mem_changes hc
  cases c with
  | dropped k o =>
    obtain ⟨ho, hkey⟩ := mem_of_lastOf? hholds.1
    exact ⟨o, List.mem_append_left _ ho, hkey⟩
  | added k n =>
    obtain ⟨hn, hkey⟩ := mem_of_lastOf? hholds.2
    exact ⟨n, List.mem_append_right _ hn, hkey⟩
  | modified k o n =>
    obtain ⟨ho, hkey⟩ := mem_of_lastOf? hholds.1
    exact ⟨o, List.mem_append_left _ ho, hkey⟩

end Change

/-! ### Names of changes -/

theorem nodup_filterMap_keys {ks : List String} (hks : ks.Nodup) {f : String → Option (Change α)}
    (hf : ∀ k c, f k = some c → c.name = k) :
  (ks.filterMap f).Nodup
  := by
  apply List.Nodup.filterMap _ hks
  intro k k' c hc hc'
  rw [← hf k c hc, ← hf k' c hc']

theorem nodup_changes :
  (changes key equal old new).Nodup
  := by
  have hkeys (items : List α) : (keysOf key items).Nodup := Text.nodup_sortOnce _
  unfold changes
  refine List.nodup_append.mpr ⟨List.nodup_append.mpr ⟨?_, ?_, ?_⟩, ?_, ?_⟩
  · apply nodup_filterMap_keys (hkeys old)
    intro k c hc
    split at hc <;> cases hc
    rfl
  · apply nodup_filterMap_keys (hkeys new)
    intro k c hc
    split at hc <;> cases hc
    rfl
  · intro c hc d hd hcd
    subst hcd
    obtain ⟨k, -, hc⟩ := List.mem_filterMap.mp hc
    obtain ⟨k', -, hd⟩ := List.mem_filterMap.mp hd
    split at hc <;> cases hc
    split at hd <;> cases hd
  · apply nodup_filterMap_keys (hkeys new)
    intro k c hc
    split at hc
    · split at hc <;> cases hc
      rfl
    · cases hc
  · intro c hc d hd hcd
    subst hcd
    obtain ⟨k', -, hd⟩ := List.mem_filterMap.mp hd
    rcases List.mem_append.mp hc with hc | hc
    all_goals
      obtain ⟨k, -, hc⟩ := List.mem_filterMap.mp hc
      split at hc <;> cases hc
      split at hd
      · split at hd <;> cases hd
      · cases hd

/-- A change is known by its name and by the items that it holds. -/
theorem Change.eq_of_parts {c d : Change α} (hname : c.name = d.name) (hold : c.old? = d.old?)
    (hnew : c.new? = d.new?) :
  c = d
  := by
  cases c <;> cases d <;> simp_all [Change.old?, Change.new?, Change.name]

theorem nodup_names_changes :
  ((changes key equal old new).map Change.name).Nodup
  := by
  apply List.Nodup.map_on _ nodup_changes
  intro c hc d hd hname
  obtain ⟨hcold, hcnew⟩ := eq_lastOf?_of_mem_changes hc
  obtain ⟨hdold, hdnew⟩ := eq_lastOf?_of_mem_changes hd
  apply Change.eq_of_parts hname
  · rw [hcold, hdold, hname]
  · rw [hcnew, hdnew, hname]

theorem nodup_filterMap_changes {f : Change α → Option α}
    (hf : ∀ c a, f c = some a → c.old? = some a ∨ c.new? = some a) :
  (((changes key equal old new).filterMap f).map key).Nodup
  := by
  have hkey : ∀ c ∈ changes key equal old new, ∀ a, f c = some a → key a = c.name := by
    intro c hc a ha
    obtain ⟨hold, hnew⟩ := eq_lastOf?_of_mem_changes hc
    rcases hf c a ha with h | h
    · exact (mem_of_lastOf? (hold.symm.trans h)).2
    · exact (mem_of_lastOf? (hnew.symm.trans h)).2
  have hnames : (changes key equal old new).Pairwise (fun c d => c.name ≠ d.name) :=
    List.pairwise_map.mp nodup_names_changes
  rw [List.Nodup, List.pairwise_map]
  apply List.Pairwise.filterMap
    (R := fun c d => ∀ a, f c = some a → ∀ b, f d = some b → key a ≠ key b)
  · intro c d hcd a ha b hb
    exact hcd a ha b hb
  · apply hnames.imp_of_mem
    intro c d hc hd hne a ha b hb
    rw [hkey c hc a ha, hkey d hd b hb]
    exact hne

/-! ### Items of one list only -/

/-- The item that a change adds, if it does nothing else. -/
def Change.added? : Change α → Option α
  | .added _ new => some new
  | _ => none

/-- The item that a change drops, if it does nothing else. -/
def Change.dropped? : Change α → Option α
  | .dropped _ old => some old
  | _ => none

theorem mem_added :
  a ∈ (changes key equal old new).filterMap Change.added?
    ↔ ∃ k, lastOf? key k old = none ∧ lastOf? key k new = some a
  := by
  rw [List.mem_filterMap]
  constructor
  · rintro ⟨c, hc, ha⟩
    cases c with
    | added k n =>
      cases ha
      exact ⟨k, Iff.mp mem_changes hc⟩
    | dropped => cases ha
    | modified => cases ha
  · rintro ⟨k, h⟩
    exact ⟨.added k a, Iff.mpr mem_changes h, rfl⟩

theorem mem_dropped :
  a ∈ (changes key equal old new).filterMap Change.dropped?
    ↔ ∃ k, lastOf? key k old = some a ∧ lastOf? key k new = none
  := by
  rw [List.mem_filterMap]
  constructor
  · rintro ⟨c, hc, ha⟩
    cases c with
    | dropped k o =>
      cases ha
      exact ⟨k, Iff.mp mem_changes hc⟩
    | added => cases ha
    | modified => cases ha
  · rintro ⟨k, h⟩
    exact ⟨.dropped k a, Iff.mpr mem_changes h, rfl⟩

/-! ### Lists in which no key occurs twice -/

section Nodup

variable (hold : (old.map key).Nodup) (hnew : (new.map key).Nodup)

include hnew in
theorem mem_added_iff :
  a ∈ (changes key equal old new).filterMap Change.added? ↔ a ∈ new ∧ ∀ b ∈ old, key b ≠ key a
  := by
  simp only [mem_added, lastOf?_eq_none, lastOf?_eq_some hnew]
  constructor
  · rintro ⟨k, hnone, ha, rfl⟩
    exact ⟨ha, hnone⟩
  · rintro ⟨ha, hnone⟩
    exact ⟨key a, hnone, ha, rfl⟩

include hold in
theorem mem_dropped_iff :
  a ∈ (changes key equal old new).filterMap Change.dropped? ↔ a ∈ old ∧ ∀ b ∈ new, key b ≠ key a
  := by
  simp only [mem_dropped, lastOf?_eq_none, lastOf?_eq_some hold]
  constructor
  · rintro ⟨k, ⟨ha, rfl⟩, hnone⟩
    exact ⟨ha, hnone⟩
  · rintro ⟨ha, hnone⟩
    exact ⟨key a, ⟨ha, rfl⟩, hnone⟩

include hold hnew in
theorem mem_old_iff :
  a ∈ (changes key equal old new).filterMap Change.old?
    ↔ a ∈ old ∧ ∀ b ∈ new, key b = key a → equal a b = false
  := by
  simp only [mem_old, lastOf?_eq_some hold, lastOf?_eq_some hnew, and_imp]
  constructor
  · rintro ⟨k, ⟨ha, rfl⟩, hequal⟩
    exact ⟨ha, hequal⟩
  · rintro ⟨ha, hequal⟩
    exact ⟨key a, ⟨ha, rfl⟩, hequal⟩

include hold hnew in
theorem mem_new_iff :
  a ∈ (changes key equal old new).filterMap Change.new?
    ↔ a ∈ new ∧ ∀ b ∈ old, key b = key a → equal b a = false
  := by
  simp only [mem_new, lastOf?_eq_some hold, lastOf?_eq_some hnew, and_imp]
  constructor
  · rintro ⟨k, ⟨ha, rfl⟩, hequal⟩
    exact ⟨ha, hequal⟩
  · rintro ⟨ha, hequal⟩
    exact ⟨key a, ⟨ha, rfl⟩, hequal⟩

end Nodup

end CqlGateway

import CqlGateway.Proofs.Catalog.Changes
import Mathlib.Data.List.Nodup

/-!
# Changes as a patch

The changes between two lists stand in an order of their own, so that it does not matter in which
order keys are visited when they are gathered. If no key occurs twice, carrying them out one after
another on the old items gives items that match the new ones, and there is nothing to carry out
exactly if the old ones match already. The changes in the other direction are the mirror image.
-/

namespace CqlGateway

variable {α : Type} {key : α → String} {equal : α → α → Bool} {old new : List α}
  {cs : List (Change α)} {c : Change α}

/-! ### The order of changes -/

/-- Drops come first, then additions, then modifications. -/
def ChangeAction.rank : ChangeAction → Nat
  | .drop => 0
  | .add => 1
  | .modify => 2

theorem ChangeAction.eq_of_rank_eq {a b : ChangeAction} (h : a.rank = b.rank) :
  a = b
  := by
  cases a <;> cases b <;> first | rfl | cases h

namespace Change

/-- Whether a change comes before another one: changes of one action are in the order of names. -/
def Precedes (c d : Change α) : Prop :=
  c.action.rank < d.action.rank ∨ c.action = d.action ∧ c.name < d.name

theorem Precedes.asymm {d : Change α} (h : c.Precedes d) :
  ¬ d.Precedes c
  := by
  rcases h with h | ⟨haction, hname⟩
  · rintro (h' | ⟨haction, -⟩)
    · omega
    · rw [haction] at h
      exact Nat.lt_irrefl _ h
  · rintro (h' | ⟨-, hname'⟩)
    · rw [haction] at h'
      exact Nat.lt_irrefl _ h'
    · exact String.lt_irrefl _ (String.lt_trans hname hname')

theorem name_eq_of_not_precedes {d : Change α} (hcd : ¬ c.Precedes d) (hdc : ¬ d.Precedes c) :
  c.name = d.name
  := by
  simp only [Precedes, not_or, not_and, Nat.not_lt, String.not_lt] at hcd hdc
  have haction := ChangeAction.eq_of_rank_eq (Nat.le_antisymm hdc.1 hcd.1)
  exact String.le_antisymm (hdc.2 haction.symm) (hcd.2 haction)

end Change

/-- Changes of one action, in the order of names. -/
structure IsBlock (action : ChangeAction) (cs : List (Change α)) : Prop where
  action : ∀ c ∈ cs, c.action = action
  names : cs.Pairwise fun c d => c.name < d.name

theorem isBlock_filterMap_keys {ks : List String} (hks : ks.Pairwise (· < ·))
    {f : String → Option (Change α)} {action : ChangeAction}
    (hf : ∀ k c, f k = some c → c.name = k ∧ c.action = action) :
  IsBlock action (ks.filterMap f)
  := by
  constructor
  · intro c hc
    obtain ⟨k, -, hk⟩ := List.mem_filterMap.mp hc
    exact (hf k c hk).2
  · rw [List.pairwise_filterMap]
    apply hks.imp
    intro k l hkl c hc d hd
    rwa [(hf k c hc).1, (hf l d hd).1]

theorem pairwise_blocks {dropped added modified : List (Change α)}
    (hdropped : IsBlock .drop dropped) (hadded : IsBlock .add added)
    (hmodified : IsBlock .modify modified) :
  (dropped ++ added ++ modified).Pairwise Change.Precedes
  := by
  have hblock {action : ChangeAction} {cs : List (Change α)} (h : IsBlock action cs) :
      cs.Pairwise Change.Precedes := by
    apply h.names.imp_of_mem
    intro c d hc hd hname
    exact .inr ⟨(h.action c hc).trans (h.action d hd).symm, hname⟩
  rw [List.pairwise_append, List.pairwise_append]
  refine ⟨⟨hblock hdropped, hblock hadded, ?_⟩, hblock hmodified, ?_⟩
  · intro c hc d hd
    left
    rw [hdropped.action c hc, hadded.action d hd]
    decide
  · intro c hc d hd
    left
    rw [hmodified.action d hd]
    rcases List.mem_append.mp hc with hc | hc
    · rw [hdropped.action c hc]
      decide
    · rw [hadded.action c hc]
      decide

theorem pairwise_changes :
  (changes key equal old new).Pairwise Change.Precedes
  := by
  have hkeys (items : List α) : (keysOf key items).Pairwise (· < ·) := Text.pairwise_sortOnce _
  unfold changes
  apply pairwise_blocks
  · apply isBlock_filterMap_keys (hkeys old)
    intro k c hc
    split at hc <;> cases hc
    exact ⟨rfl, rfl⟩
  · apply isBlock_filterMap_keys (hkeys new)
    intro k c hc
    split at hc <;> cases hc
    exact ⟨rfl, rfl⟩
  · apply isBlock_filterMap_keys (hkeys new)
    intro k c hc
    split at hc
    · split at hc <;> cases hc
      exact ⟨rfl, rfl⟩
    · cases hc

/-- However the changes are arranged before they are put in order, they end up in the same one. -/
theorem eq_changes_of_perm (hperm : cs.Perm (changes key equal old new))
    (hordered : cs.Pairwise fun c d => ¬ d.Precedes c) :
  cs = changes key equal old new
  := by
  -- Changes that may stand in either order have the same name, and no two have.
  apply hperm.eq_of_pairwise _ hordered (pairwise_changes.imp Change.Precedes.asymm)
  intro c d hc hd hcd hdc
  apply List.inj_on_of_nodup_map nodup_names_changes (hperm.mem_iff.mp hc) hd
  exact Change.name_eq_of_not_precedes hdc hcd

theorem eq_changes_of_mem_iff (hordered : cs.Pairwise Change.Precedes)
    (hmem : ∀ c, c ∈ cs ↔ c.Holds key equal old new) :
  cs = changes key equal old new
  := by
  have hnodup : cs.Nodup := by
    apply hordered.imp
    rintro c d hcd rfl
    exact hcd.asymm hcd
  apply eq_changes_of_perm _ (hordered.imp Change.Precedes.asymm)
  rw [List.perm_ext_iff_of_nodup hnodup nodup_changes]
  intro c
  rw [hmem, mem_changes]

/-! ### Gathering changes -/

/-- The changes as they are found when the old keys and then the new ones are visited in the given
order. -/
def gathered (key : α → String) (equal : α → α → Bool) (old new : List α)
    (oldKeys newKeys : List String) : List (Change α) :=
  (oldKeys.filterMap fun k =>
    match lastOf? key k old, lastOf? key k new with
    | some o, none => some (.dropped k o)
    | _, _ => none)
  ++ newKeys.filterMap fun k =>
    match lastOf? key k old, lastOf? key k new with
    | none, some n => some (.added k n)
    | some o, some n => if equal o n then none else some (.modified k o n)
    | _, none => none

theorem mem_gathered {oldKeys newKeys : List String} (hold : oldKeys.Perm (keysOf key old))
    (hnew : newKeys.Perm (keysOf key new)) :
  c ∈ gathered key equal old new oldKeys newKeys ↔ c.Holds key equal old new
  := by
  rw [gathered, List.mem_append, List.mem_filterMap, List.mem_filterMap]
  constructor
  · rintro (⟨k, -, h⟩ | ⟨k, -, h⟩)
    · split at h <;> cases h
      next ho hn => exact ⟨ho, hn⟩
    · split at h
      next ho hn =>
        cases h
        exact ⟨ho, hn⟩
      next ho hn =>
        split at h <;> cases h
        next hequal => exact ⟨ho, hn, by simpa using hequal⟩
      next => cases h
  · intro h
    cases c with
    | dropped k o =>
      refine .inl ⟨k, hold.mem_iff.mpr (mem_keysOf_of_lastOf? h.1), ?_⟩
      simp [h.1, h.2]
    | added k n =>
      refine .inr ⟨k, hnew.mem_iff.mpr (mem_keysOf_of_lastOf? h.2), ?_⟩
      simp [h.1, h.2]
    | modified k o n =>
      refine .inr ⟨k, hnew.mem_iff.mpr (mem_keysOf_of_lastOf? h.2.1), ?_⟩
      simp [h.1, h.2.1, h.2.2]

theorem perm_gathered {oldKeys newKeys : List String} (hold : oldKeys.Perm (keysOf key old))
    (hnew : newKeys.Perm (keysOf key new)) :
  (gathered key equal old new oldKeys newKeys).Perm (changes key equal old new)
  := by
  have hnodup : (gathered key equal old new oldKeys newKeys).Nodup := by
    refine List.nodup_append.mpr ⟨?_, ?_, ?_⟩
    · apply nodup_filterMap_keys (hold.nodup_iff.mpr (Text.nodup_sortOnce _))
      intro k c hc
      split at hc <;> cases hc
      rfl
    · apply nodup_filterMap_keys (hnew.nodup_iff.mpr (Text.nodup_sortOnce _))
      intro k c hc
      split at hc
      · cases hc
        rfl
      · split at hc <;> cases hc
        rfl
      · cases hc
    · rintro c hc _ hd rfl
      obtain ⟨k, -, hc⟩ := List.mem_filterMap.mp hc
      obtain ⟨k', -, hd⟩ := List.mem_filterMap.mp hd
      split at hc <;> cases hc
      split at hd
      · cases hd
      · split at hd <;> cases hd
      · cases hd
  rw [List.perm_ext_iff_of_nodup hnodup nodup_changes]
  intro c
  rw [mem_gathered hold hnew, mem_changes]

/-- Changes without a name twice for the same action, in their order, to which one gets whatever the
order is in which keys are visited and whatever way of sorting is used. -/
structure IsArranged (key : α → String) (equal : α → α → Bool) (old new : List α)
    (cs : List (Change α)) : Prop where
  distinct : (cs.map fun c => (c.action, c.name)).Nodup
  ordered : cs.Pairwise Change.Precedes
  settled : ∀ oldKeys newKeys ds, oldKeys.Perm (keysOf key old) → newKeys.Perm (keysOf key new) →
    ds.Perm (gathered key equal old new oldKeys newKeys) →
    ds.Pairwise (fun c d => ¬ d.Precedes c) → ds = cs

theorem isArranged_changes (key : α → String) (equal : α → α → Bool) (old new : List α) :
  IsArranged key equal old new (changes key equal old new)
  := by
  constructor
  case distinct =>
    rw [List.Nodup, List.pairwise_map]
    apply (List.pairwise_map.mp nodup_names_changes).imp
    intro c d hne heq
    exact hne (Prod.mk.inj heq).2
  case ordered => exact pairwise_changes
  case settled =>
    intro oldKeys newKeys ds hold hnew hperm hordered
    exact eq_changes_of_perm (hperm.trans (perm_gathered hold hnew)) hordered

/-! ### Lists that match -/

/-- Two lists have the same keys, and items of the same key are related. -/
structure Matches (key : α → String) (r : α → α → Prop) (xs ys : List α) : Prop where
  keys : (xs.map key).Perm (ys.map key)
  related : ∀ a ∈ xs, ∀ b ∈ ys, key a = key b → r a b

section Matches

variable {r : α → α → Prop} {xs ys : List α}

theorem matches_iff_lastOf? (hxs : (xs.map key).Nodup) (hys : (ys.map key).Nodup) :
  Matches key r xs ys ↔ ∀ k, Option.Rel r (lastOf? key k xs) (lastOf? key k ys)
  := by
  constructor
  · intro h k
    cases hx : lastOf? key k xs with
    | none =>
      cases hy : lastOf? key k ys with
      | none => exact .none
      | some b =>
        obtain ⟨hb, rfl⟩ := mem_of_lastOf? hy
        obtain ⟨a, ha, hkey⟩ := List.mem_map.mp (h.keys.mem_iff.mpr (List.mem_map_of_mem hb))
        exact (lastOf?_eq_none.mp hx a ha hkey).elim
    | some a =>
      obtain ⟨ha, rfl⟩ := mem_of_lastOf? hx
      obtain ⟨b, hb, hkey⟩ := List.mem_map.mp (h.keys.mem_iff.mp (List.mem_map_of_mem ha))
      rw [(lastOf?_eq_some hys).mpr ⟨hb, hkey⟩]
      exact .some (h.related a ha b hb hkey.symm)
  · intro h
    constructor
    · rw [List.perm_ext_iff_of_nodup hxs hys]
      intro k
      have hmem {zs : List α} : k ∈ zs.map key ↔ lastOf? key k zs ≠ none := by
        simp [lastOf?_eq_none]
      have hk := h k
      rw [hmem, hmem]
      generalize lastOf? key k xs = x, lastOf? key k ys = y at hk
      cases hk with
      | some => simp
      | none => simp
    · intro a ha b hb hkey
      have hab := h (key a)
      rw [(lastOf?_eq_some hxs).mpr ⟨ha, rfl⟩, (lastOf?_eq_some hys).mpr ⟨hb, hkey.symm⟩] at hab
      cases hab with
      | some hab => exact hab

theorem Matches.perm (h : Matches key r xs ys) (hxs : (xs.map key).Nodup)
    (heq : ∀ a ∈ xs, ∀ b ∈ ys, key a = key b → r a b → a = b) :
  xs.Perm ys
  := by
  have hys : (ys.map key).Nodup := h.keys.nodup_iff.mp hxs
  rw [List.perm_ext_iff_of_nodup hxs.of_map hys.of_map]
  intro a
  constructor
  · intro ha
    obtain ⟨b, hb, hkey⟩ := List.mem_map.mp (h.keys.mem_iff.mp (List.mem_map_of_mem ha))
    rwa [heq a ha b hb hkey.symm (h.related a ha b hb hkey.symm)]
  · intro ha
    obtain ⟨b, hb, hkey⟩ := List.mem_map.mp (h.keys.mem_iff.mpr (List.mem_map_of_mem ha))
    rwa [← heq b hb a ha hkey (h.related b hb a ha hkey)]

end Matches

/-- There are no changes at a key exactly if the items there are alike. -/
theorem rel_lastOf?_iff {k : String} :
  Option.Rel (equal · · = true) (lastOf? key k old) (lastOf? key k new)
    ↔ ∀ c ∈ changes key equal old new, c.name ≠ k
  := by
  constructor
  · rintro h c hc rfl
    have hholds := mem_changes.mp hc
    cases c with
    | dropped k o =>
      rw [Change.name, hholds.1, hholds.2] at h
      cases h
    | added k n =>
      rw [Change.name, hholds.1, hholds.2] at h
      cases h
    | modified k o n =>
      rw [Change.name, hholds.1, hholds.2.1] at h
      cases h with
      | some h => exact Bool.false_ne_true (hholds.2.2.symm.trans h)
  · intro h
    cases ho : lastOf? key k old with
    | none =>
      cases hn : lastOf? key k new with
      | none => exact .none
      | some n => exact (h (.added k n) (mem_changes.mpr ⟨ho, hn⟩) rfl).elim
    | some o =>
      cases hn : lastOf? key k new with
      | none => exact (h (.dropped k o) (mem_changes.mpr ⟨ho, hn⟩) rfl).elim
      | some n =>
        refine .some (eq_true_of_ne_false ?_)
        intro hequal
        exact h (.modified k o n) (mem_changes.mpr ⟨ho, hn, hequal⟩) rfl

theorem changes_eq_nil_iff (hold : (old.map key).Nodup) (hnew : (new.map key).Nodup) :
  changes key equal old new = [] ↔ Matches key (equal · · = true) old new
  := by
  rw [matches_iff_lastOf? hold hnew]
  simp only [rel_lastOf?_iff]
  constructor
  · rintro h k c hc
    rw [h] at hc
    cases hc
  · intro h
    rw [List.eq_nil_iff_forall_not_mem]
    intro c hc
    exact h c.name c hc rfl

/-! ### Carrying out changes -/

section Enact

variable [DecidableEq α]

/-- Carry out a change. The old item has to be there as the change says, and gives way to the new
one. -/
def Change.enact? (key : α → String) (items : List α) (c : Change α) : Option (List α) :=
  if lastOf? key c.name items = c.old? then
    some (items.filter (key · ≠ c.name) ++ c.new?.toList)
  else
    none

/-- Carry out changes one after another. -/
def enactAll? (key : α → String) (items : List α) (cs : List (Change α)) : Option (List α) :=
  cs.foldlM (Change.enact? key) items

omit [DecidableEq α] in
theorem lastOf?_replace {k : String} {new? : Option α} (hkey : ∀ a ∈ new?, key a = k)
    (items : List α) (l : String) :
  lastOf? key l (items.filter (key · ≠ k) ++ new?.toList)
    = if l = k then new? else lastOf? key l items
  := by
  have hfind : (items.filter (key · ≠ k)).reverse.find? (key · = l)
      = if l = k then none else lastOf? key l items := by
    rw [← List.filter_reverse, List.find?_filter]
    split
    next hl =>
      rw [List.find?_eq_none]
      simp [hl]
    next hl =>
      apply congrArg (List.find? · items.reverse)
      funext a
      by_cases ha : key a = l
      · simp [ha, hl]
      · simp [ha]
  rw [lastOf?, List.reverse_append, List.find?_append, hfind]
  cases new? with
  | none => rfl
  | some a =>
    have ha : key a = k := hkey a rfl
    by_cases hl : l = k
    · simp [ha, hl]
    · simp [ha, hl, Ne.symm hl]

/-- One change is carried out at its name, and nowhere else. -/
theorem enact?_of_lastOf? {items : List α} (hnodup : (items.map key).Nodup)
    (hold : lastOf? key c.name items = c.old?) (hnew : ∀ a ∈ c.new?, key a = c.name) :
  ∃ items', c.enact? key items = some items' ∧ (items'.map key).Nodup
    ∧ ∀ k, lastOf? key k items' = if k = c.name then c.new? else lastOf? key k items
  := by
  refine ⟨_, if_pos hold, ?_, lastOf?_replace hnew items⟩
  rw [List.map_append, List.nodup_append]
  refine ⟨hnodup.sublist (List.filter_sublist.map key), ?_, ?_⟩
  · cases c.new? with
    | none => exact List.nodup_nil
    | some a => exact List.nodup_singleton _
  · intro k hk l hl hkl
    obtain ⟨a, ha, rfl⟩ := List.mem_map.mp hk
    obtain ⟨b, hb, rfl⟩ := List.mem_map.mp hl
    rw [hnew b (by simpa using hb)] at hkl
    simp [hkl] at ha

/-- Changes of different names are carried out at their names, and nowhere else. -/
theorem enactAll?_of_lastOf? {items : List α} (hnodup : (items.map key).Nodup)
    (hnames : (cs.map Change.name).Nodup) (hold : ∀ c ∈ cs, lastOf? key c.name items = c.old?)
    (hnew : ∀ c ∈ cs, ∀ a ∈ c.new?, key a = c.name) :
  ∃ items', enactAll? key items cs = some items' ∧ (items'.map key).Nodup
    ∧ (∀ c ∈ cs, lastOf? key c.name items' = c.new?)
    ∧ ∀ k, (∀ c ∈ cs, c.name ≠ k) → lastOf? key k items' = lastOf? key k items
  := by
  induction cs generalizing items with
  | nil => exact ⟨items, rfl, hnodup, by simp, fun _ _ => rfl⟩
  | cons c cs ih =>
    rw [List.map_cons, List.nodup_cons] at hnames
    rw [List.forall_mem_cons] at hold hnew
    have hother : ∀ d ∈ cs, d.name ≠ c.name := by
      intro d hd h
      exact hnames.1 (h ▸ List.mem_map_of_mem hd)
    obtain ⟨mid, hmid, hmidNodup, hmidLast⟩ := enact?_of_lastOf? hnodup hold.1 hnew.1
    -- The changes to come still find their old items, since none of them has the name of `c`.
    have hmidOld : ∀ d ∈ cs, lastOf? key d.name mid = d.old? := by
      intro d hd
      rw [hmidLast, if_neg (hother d hd)]
      exact hold.2 d hd
    obtain ⟨items', hitems, hitemsNodup, hat, helse⟩ := ih hmidNodup hnames.2 hmidOld hnew.2
    refine ⟨items', ?_, hitemsNodup, ?_, ?_⟩
    · rw [enactAll?, List.foldlM_cons, hmid]
      exact hitems
    · rw [List.forall_mem_cons]
      refine ⟨?_, hat⟩
      rw [helse c.name hother, hmidLast, if_pos rfl]
    · intro k hk
      rw [List.forall_mem_cons] at hk
      rw [helse k hk.2, hmidLast, if_neg (Ne.symm hk.1)]

/-- The changes between two lists can be carried out on the old items. This gives the new items,
except that old ones are kept that are alike. -/
theorem enactAll?_changes (equal : α → α → Bool) (hold : (old.map key).Nodup)
    (hnew : (new.map key).Nodup) :
  ∃ items, enactAll? key old (changes key equal old new) = some items
    ∧ (items.map key).Nodup
    ∧ Matches key (fun a b => a = b ∨ a ∈ old ∧ equal a b = true) items new
  := by
  have hparts : ∀ c ∈ changes key equal old new, ∀ a ∈ c.new?, key a = c.name := by
    intro c hc a ha
    rw [(eq_lastOf?_of_mem_changes hc).2] at ha
    exact (mem_of_lastOf? ha).2
  obtain ⟨items, hitems, hnodup, hat, helse⟩ := enactAll?_of_lastOf? hold nodup_names_changes
    (fun c hc => (eq_lastOf?_of_mem_changes hc).1.symm) hparts
  refine ⟨items, hitems, hnodup, (matches_iff_lastOf? hnodup hnew).mpr ?_⟩
  intro k
  by_cases hk : ∃ c ∈ changes key equal old new, c.name = k
  · obtain ⟨c, hc, rfl⟩ := hk
    rw [hat c hc, (eq_lastOf?_of_mem_changes hc).2]
    cases lastOf? key c.name new with
    | none => exact .none
    | some n => exact .some (.inl rfl)
  · have hk : ∀ c ∈ changes key equal old new, c.name ≠ k := fun c hc h => hk ⟨c, hc, h⟩
    have hrel := rel_lastOf?_iff.mpr hk
    have hmem : ∀ a ∈ lastOf? key k old, a ∈ old := fun a ha => (mem_of_lastOf? ha).1
    rw [helse k hk]
    generalize lastOf? key k old = x, lastOf? key k new = y at hrel hmem
    cases hrel with
    | some h => exact .some (.inr ⟨hmem _ rfl, h⟩)
    | none => exact .none

end Enact

/-! ### The mirror image -/

/-- What is added in one direction is dropped in the other. -/
def Change.mirror : Change α → Change α
  | .dropped name old => .added name old
  | .added name new => .dropped name new
  | .modified name old new => .modified name new old

/-- Changes seen from the other side: additions become drops and come first. -/
def mirrorChanges (cs : List (Change α)) : List (Change α) :=
  (cs.filter (·.action = .add) ++ cs.filter (·.action = .drop)
    ++ cs.filter (·.action = .modify)).map Change.mirror

@[simp]
theorem Change.mirror_mirror (c : Change α) :
  c.mirror.mirror = c
  := by
  cases c <;> rfl

@[simp]
theorem Change.name_mirror (c : Change α) :
  c.mirror.name = c.name
  := by
  cases c <;> rfl

theorem mem_mirrorChanges :
  c ∈ mirrorChanges cs ↔ c.mirror ∈ cs
  := by
  rw [mirrorChanges, List.mem_map]
  constructor
  · rintro ⟨d, hd, rfl⟩
    simp only [List.mem_append, List.mem_filter] at hd
    rw [Change.mirror_mirror]
    rcases hd with (hd | hd) | hd
    · exact hd.1
    · exact hd.1
    · exact hd.1
  · intro hc
    refine ⟨c.mirror, ?_, c.mirror_mirror⟩
    cases c <;> simp [Change.mirror, Change.action] at hc ⊢ <;> exact hc

theorem pairwise_mirrorChanges (h : cs.Pairwise Change.Precedes) :
  (mirrorChanges cs).Pairwise Change.Precedes
  := by
  have hblock {action action' : ChangeAction}
      (haction : ∀ c : Change α, c.action = action → c.mirror.action = action') :
      IsBlock action' ((cs.filter (·.action = action)).map Change.mirror) := by
    have hmem {c : Change α} (hc : c ∈ cs.filter (·.action = action)) : c.action = action :=
      of_decide_eq_true (List.mem_filter.mp hc).2
    constructor
    · intro c hc
      obtain ⟨d, hd, rfl⟩ := List.mem_map.mp hc
      exact haction d (hmem hd)
    · rw [List.pairwise_map]
      apply (h.filter _).imp_of_mem
      intro c d hc hd hcd
      rw [Change.name_mirror, Change.name_mirror]
      rcases hcd with hrank | ⟨-, hname⟩
      · rw [hmem hc, hmem hd] at hrank
        exact (Nat.lt_irrefl _ hrank).elim
      · exact hname
  rw [mirrorChanges, List.map_append, List.map_append]
  apply pairwise_blocks
  · apply hblock
    intro c hc
    cases c <;> first | rfl | cases hc
  · apply hblock
    intro c hc
    cases c <;> first | rfl | cases hc
  · apply hblock
    intro c hc
    cases c <;> first | rfl | cases hc

theorem Change.holds_mirror (hsymm : ∀ a b, equal a b = equal b a) :
  c.mirror.Holds key equal old new ↔ c.Holds key equal new old
  := by
  cases c with
  | dropped k o => exact and_comm
  | added k n => exact and_comm
  | modified k o n =>
    rw [Change.mirror, Change.Holds, Change.Holds, hsymm n o, and_left_comm]

/-- The changes in the other direction are the mirror image. -/
theorem changes_comm (hsymm : ∀ a b, equal a b = equal b a) (key : α → String)
    (old new : List α) :
  changes key equal new old = mirrorChanges (changes key equal old new)
  := by
  symm
  apply eq_changes_of_mem_iff (pairwise_mirrorChanges pairwise_changes)
  intro c
  rw [mem_mirrorChanges, mem_changes, Change.holds_mirror hsymm]

end CqlGateway

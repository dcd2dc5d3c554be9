import CqlGateway.Statement.Node
import Mathlib.Data.List.Induction

/-!
# Members of objects

Sorting the members of an object leaves each of them that is looked up, and leaves sorted members as
they are. Members that may be left out are given with an option for their value; whether they are
left out before or after sorting makes no difference.
-/

namespace CqlGateway

variable {α β : Type}
  {ms : List (String × α)} {es : List (String × Option α)} {name : String} {m : String × α}

/-! ### Sorted members -/

/-- Members in strictly ascending order of their names. -/
def AscendingMembers (ms : List (String × α)) : Prop :=
  ms.Pairwise fun m n => m.1 < n.1

theorem nodup_of_ascending (h : AscendingMembers ms) :
  (ms.map Prod.fst).Nodup
  := by
  apply List.pairwise_map.mpr
  apply h.imp
  intro m n hlt heq
  exact String.lt_irrefl _ (heq ▸ hlt)

theorem mem_insertMember {value : α} (h : m ∈ insertMember name value ms) :
  m = (name, value) ∨ m ∈ ms
  := by
  induction ms with
  | nil => exact .inl (List.mem_singleton.mp h)
  | cons head rest ih =>
    unfold insertMember at h
    split at h
    · rw [List.mem_cons] at h ⊢
      exact h.imp_right .inr
    · split at h
      · exact List.mem_cons.mp h
      · rw [List.mem_cons] at h ⊢
        rcases h with h | h
        · exact .inr (.inl h)
        · exact (ih h).imp_right .inr

theorem sortMembers_concat (ms : List (String × α)) (m : String × α) :
  sortMembers (ms ++ [m]) = insertMember m.1 m.2 (sortMembers ms)
  := by
  rw [sortMembers, List.foldl_append]
  rfl

theorem mem_of_mem_sortMembers (h : m ∈ sortMembers ms) :
  m ∈ ms
  := by
  induction ms using List.reverseRecOn with
  | nil => cases h
  | append_singleton ms last ih =>
    rw [sortMembers_concat] at h
    rw [List.mem_append, List.mem_singleton]
    rcases mem_insertMember h with h | h
    · exact .inr h
    · exact .inl (ih h)

theorem ascending_insertMember (name : String) (value : α) (h : AscendingMembers ms) :
  AscendingMembers (insertMember name value ms)
  := by
  induction ms with
  | nil => apply List.pairwise_singleton
  | cons head rest ih =>
    obtain ⟨hhead, hrest⟩ := List.pairwise_cons.mp h
    unfold insertMember
    split
    next heq => exact List.pairwise_cons.mpr ⟨fun m hm => heq ▸ hhead m hm, hrest⟩
    next hne =>
      split
      next hlt =>
        refine List.pairwise_cons.mpr ⟨?_, h⟩
        intro m hm
        rcases List.mem_cons.mp hm with rfl | hm
        · exact hlt
        · exact String.lt_trans hlt (hhead m hm)
      next hlt =>
        refine List.pairwise_cons.mpr ⟨?_, ih hrest⟩
        intro m hm
        rcases mem_insertMember hm with rfl | hm
        · by_contra hgt
          exact hne (String.le_antisymm (String.not_lt.mp hgt) (String.not_lt.mp hlt))
        · exact hhead m hm

theorem ascending_sortMembers (ms : List (String × α)) :
  AscendingMembers (sortMembers ms)
  := by
  induction ms using List.reverseRecOn with
  | nil => exact List.Pairwise.nil
  | append_singleton ms last ih =>
    rw [sortMembers_concat]
    apply ascending_insertMember last.1 last.2 ih

theorem insertMember_of_forall_lt (value : α) (h : ∀ m ∈ ms, m.1 < name) :
  insertMember name value ms = ms ++ [(name, value)]
  := by
  induction ms with
  | nil => rfl
  | cons head rest ih =>
    rw [List.forall_mem_cons] at h
    have hlt := String.lt_asymm h.1
    have hne : name ≠ head.1 := by
      rintro rfl
      exact String.lt_irrefl _ h.1
    rw [insertMember, if_neg hne, if_neg hlt, ih h.2, List.cons_append]

theorem sortMembers_of_ascending (h : AscendingMembers ms) :
  sortMembers ms = ms
  := by
  induction ms using List.reverseRecOn with
  | nil => rfl
  | append_singleton ms last ih =>
    obtain ⟨hms, -, hlast⟩ := List.pairwise_append.mp h
    rw [sortMembers_concat, ih hms]
    apply insertMember_of_forall_lt
    intro m hm
    apply hlast m hm last (List.mem_singleton.mpr rfl)

theorem sortMembers_map (f : α → β) (ms : List (String × α)) :
  sortMembers (ms.map fun m => (m.1, f m.2)) = (sortMembers ms).map fun m => (m.1, f m.2)
  := by
  have hinsert (name : String) (value : α) (ms : List (String × α)) :
      insertMember name (f value) (ms.map fun m => (m.1, f m.2))
        = (insertMember name value ms).map fun m => (m.1, f m.2) := by
    induction ms with
    | nil => rfl
    | cons head rest ih =>
      simp only [insertMember, List.map_cons, ih]
      split
      · rfl
      · split <;> rfl
  induction ms using List.reverseRecOn with
  | nil => rfl
  | append_singleton ms last ih =>
    rw [List.map_append, List.map_singleton, sortMembers_concat, ih, hinsert, sortMembers_concat]

/-- The order in which members are sorted depends on their names only. -/
theorem sortMembers_eq_map_order {names : List String} {order : List Nat}
    (hnames : es.map Prod.fst = names)
    (h : sortMembers names.zipIdx = order.map fun i => (names.getD i "", i)) :
  sortMembers es = order.map fun i => (names.getD i "", es[i]?.bind Prod.snd)
  := by
  subst hnames
  have hes : (es.map Prod.fst).zipIdx.map (fun m => (m.1, es[m.2]?.bind Prod.snd)) = es := by
    apply List.ext_getElem
    · simp
    · intro i _ hi
      simp [List.getElem?_eq_getElem hi]
  have hsorted := sortMembers_map (fun i => es[i]?.bind Prod.snd) (es.map Prod.fst).zipIdx
  rwa [hes, h, List.map_map] at hsorted

/-! ### Members that may be left out -/

/-- The members that are given a value. -/
def given (es : List (String × Option α)) : List (String × α) :=
  es.filterMap fun e => e.2.map (e.1, ·)

@[simp]
theorem given_nil :
  given ([] : List (String × Option α)) = []
  := rfl

@[simp]
theorem given_cons_none (name : String) (es : List (String × Option α)) :
  given ((name, none) :: es) = given es
  := rfl

@[simp]
theorem given_cons_some (name : String) (value : α) (es : List (String × Option α)) :
  given ((name, some value) :: es) = (name, value) :: given es
  := rfl

theorem given_append (es fs : List (String × Option α)) :
  given (es ++ fs) = given es ++ given fs
  := List.filterMap_append

theorem mem_given :
  m ∈ given es ↔ (m.1, some m.2) ∈ es
  := by
  simp only [given, List.mem_filterMap, Option.map_eq_some_iff]
  constructor
  · rintro ⟨⟨name, value⟩, he, v, rfl, rfl⟩
    exact he
  · intro h
    exact ⟨_, h, m.2, rfl, rfl⟩

theorem sublist_given (es : List (String × Option α)) :
  ((given es).map Prod.fst).Sublist (es.map Prod.fst)
  := by
  induction es with
  | nil => exact .slnil
  | cons e es ih =>
    obtain ⟨name, value⟩ := e
    cases value with
    | none => exact ih.cons name
    | some v => exact ih.cons_cons name

theorem given_map (f : α → β) (es : List (String × Option α)) :
  given (es.map fun e => (e.1, e.2.map f)) = (given es).map fun m => (m.1, f m.2)
  := by
  induction es with
  | nil => rfl
  | cons e es ih =>
    obtain ⟨name, value⟩ := e
    cases value with
    | none => simpa using ih
    | some value => simpa using ih

theorem given_insertMember_none (hname : ∀ e ∈ es, e.1 ≠ name) :
  given (insertMember name none es) = given es
  := by
  induction es with
  | nil => rfl
  | cons e es ih =>
    rw [List.forall_mem_cons] at hname
    rw [insertMember, if_neg (Ne.symm hname.1)]
    split
    · rfl
    · obtain ⟨key, value⟩ := e
      cases value with
      | none => simpa using ih hname.2
      | some value => simpa using ih hname.2

theorem given_insertMember_some (value : α) (hes : AscendingMembers es)
    (hname : ∀ e ∈ es, e.1 ≠ name) :
  given (insertMember name (some value) es) = insertMember name value (given es)
  := by
  induction es with
  | nil => rfl
  | cons e es ih =>
    obtain ⟨hhead, htail⟩ := List.pairwise_cons.mp hes
    rw [List.forall_mem_cons] at hname
    rw [insertMember, if_neg (Ne.symm hname.1)]
    obtain ⟨key, old⟩ := e
    split
    next hlt =>
      -- the new member comes first, also before the members that are given behind it
      rw [given_cons_some]
      cases hgiven : given ((key, old) :: es) with
      | nil => rfl
      | cons m ms =>
        have hm : m ∈ given ((key, old) :: es) := by simp [hgiven]
        have hless : name < m.1 := by
          rcases List.mem_cons.mp (mem_given.mp hm) with h | h
          · rw [Prod.mk.injEq] at h
            exact h.1 ▸ hlt
          · exact String.lt_trans hlt (hhead _ h)
        have hne : name ≠ m.1 := by
          intro h
          exact String.lt_irrefl _ (h ▸ hless)
        rw [insertMember, if_neg hne, if_pos hless]
    next hlt =>
      cases old with
      | none => simpa using ih htail hname.2
      | some old =>
        rw [given_cons_some, given_cons_some, insertMember, if_neg (Ne.symm hname.1), if_neg hlt,
          ih htail hname.2]

/-- Members are sorted alike before and after some of them are left out. -/
theorem sortMembers_given (h : (es.map Prod.fst).Nodup) :
  sortMembers (given es) = given (sortMembers es)
  := by
  induction es using List.reverseRecOn with
  | nil => rfl
  | append_singleton es last ih =>
    obtain ⟨name, value⟩ := last
    rw [List.map_append, List.nodup_append] at h
    obtain ⟨hes, -, hlast⟩ := h
    have hname : ∀ e ∈ sortMembers es, e.1 ≠ name := by
      intro e he
      apply hlast e.1 (List.mem_map_of_mem (mem_of_mem_sortMembers he)) name (by simp)
    rw [sortMembers_concat, given_append]
    cases value with
    | none => simpa [given_insertMember_none hname] using ih hes
    | some value =>
      rw [given_insertMember_some value (ascending_sortMembers es) hname, ← ih hes,
        given_cons_some, given_nil, sortMembers_concat]

/-! ### Looking up members -/

namespace Node

theorem lookup?_cons (name key : String) (value : Node) (ms : List (String × Node)) :
  lookup? name ((key, value) :: ms)
    = (lookup? name ms).or (if key = name then some value else none)
  := by
  rw [lookup?]
  cases lookup? name ms <;> rfl

/-- A function that goes through members as a lookup does, and applies a function to what it finds. -/
theorem eq_map_lookup? {β : Type} {f : List (String × Node) → Option β} {g : Node → β}
    (hnil : f [] = none)
    (hcons : ∀ key n ms, f ((key, n) :: ms) = match f ms with
      | some found => some found
      | none => if key = name then some (g n) else none)
    (ms : List (String × Node)) :
  f ms = (lookup? name ms).map g
  := by
  induction ms with
  | nil => rw [hnil, lookup?, Option.map_none]
  | cons m ms ih =>
    obtain ⟨key, n⟩ := m
    rw [hcons, lookup?, ih]
    cases lookup? name ms with
    | some found => rfl
    | none =>
      simp only [Option.map_none]
      split <;> rfl

theorem mem_of_lookup? {ms : List (String × Node)} {value : Node}
    (h : lookup? name ms = some value) :
  (name, value) ∈ ms
  := by
  induction ms with
  | nil => cases h
  | cons m ms ih =>
    obtain ⟨key, first⟩ := m
    rw [lookup?] at h
    cases hfound : lookup? name ms with
    | some found =>
      rw [hfound] at h
      exact List.mem_cons_of_mem _ (ih (hfound.trans h))
    | none =>
      simp only [hfound, Option.ite_none_right_eq_some] at h
      obtain ⟨rfl, h⟩ := h
      cases h
      exact List.mem_cons_self

theorem lookup?_eq_none_of_forall_lt {ms : List (String × Node)} (h : ∀ m ∈ ms, name < m.1) :
  lookup? name ms = none
  := by
  rw [Option.eq_none_iff_forall_ne_some]
  intro value hvalue
  exact String.lt_irrefl _ (h _ (mem_of_lookup? hvalue))

theorem lookup?_insertMember (name key : String) (value : Node) {ms : List (String × Node)}
    (h : AscendingMembers ms) :
  lookup? name (insertMember key value ms)
    = if key = name then some value else lookup? name ms
  := by
  induction ms with
  | nil => simp [insertMember, lookup?_cons, lookup?]
  | cons head rest ih =>
    obtain ⟨hhead, hrest⟩ := List.pairwise_cons.mp h
    obtain ⟨first, old⟩ := head
    unfold insertMember
    split
    next heq =>
      subst heq
      rw [lookup?_cons, lookup?_cons]
      by_cases hname : key = name
      · subst hname
        simp [lookup?_eq_none_of_forall_lt hhead]
      · simp [hname]
    next hne =>
      split
      next hlt =>
        rw [lookup?_cons]
        by_cases hname : key = name
        · subst hname
          have hnone : lookup? key ((first, old) :: rest) = none := by
            apply lookup?_eq_none_of_forall_lt
            intro m hm
            rcases List.mem_cons.mp hm with rfl | hm
            · exact hlt
            · exact String.lt_trans hlt (hhead m hm)
          simp [hnone]
        · simp [hname]
      next hlt =>
        rw [lookup?_cons, ih hrest, lookup?_cons]
        by_cases hname : key = name
        · simp [hname]
        · simp [hname]

@[simp]
theorem lookup?_sortMembers (name : String) (ms : List (String × Node)) :
  lookup? name (sortMembers ms) = lookup? name ms
  := by
  have hsnoc (ms : List (String × Node)) (m : String × Node) :
      lookup? name (ms ++ [m]) = if m.1 = name then some m.2 else lookup? name ms := by
    induction ms with
    | nil => simp [lookup?]
    | cons head rest ih =>
      rw [List.cons_append, lookup?_cons, ih, lookup?_cons]
      split <;> simp
  induction ms using List.reverseRecOn with
  | nil => rfl
  | append_singleton ms last ih =>
    rw [sortMembers_concat,
      lookup?_insertMember name last.1 last.2 (ascending_sortMembers ms), ih, hsnoc]

/-- A member that may be left out is looked up if it is given and none behind it has its name. -/
theorem lookup?_given_cons (name key : String) (value? : Option Node)
    (es : List (String × Option Node)) :
  lookup? name (given ((key, value?) :: es))
    = (lookup? name (given es)).or (if key = name then value? else none)
  := by
  cases value? with
  | none => simp
  | some value => rw [given_cons_some, lookup?_cons]

end Node

end CqlGateway

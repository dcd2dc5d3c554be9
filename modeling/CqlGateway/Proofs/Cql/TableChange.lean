import CqlGateway.Proofs.Catalog.Definition
import Mathlib.Data.List.Nodup

/-!
# Changes to the columns of a table

A statement adds, drops or renames columns, one or several at a time. It is performed as a whole
or not at all: what is added must not be there before, what is dropped must be there, and columns
that are renamed all at once must be there under their old names only.

Changes to different columns can be performed in any order, and changes of one kind can be put into
one statement. Main statements: gathering the changes by kind, first what is added, then what is
dropped and then what is renamed, has the same effect if changes to one column stand in this order
already; and it can be performed after all only if they do, but for columns that are renamed to,
dropped and added.
-/

namespace CqlGateway

open Cql (ColumnType)

/-- The columns of a table, with their types. -/
abbrev Columns := List (String × ColumnType)

namespace Columns

/-- The names of columns. -/
def names (columns : Columns) : List String :=
  columns.map (·.1)

/-- The name of a column after columns were renamed at once. -/
def newName (name : String) : List (String × String) → String
  | [] => name
  | (old, new) :: rest => if name = old then new else newName name rest

/-- The columns under their new names. -/
def renamed (columns : Columns) (renames : List (String × String)) : Columns :=
  columns.map fun c => (newName c.1 renames, c.2)

end Columns

/-- What a statement changes about the columns of a table. -/
inductive TableChange where
  | add (columns : Columns)
  | drop (names : List String)
  /-- The old names with the new ones. -/
  | rename (names : List (String × String))
  deriving DecidableEq, Repr

namespace TableChange

/-- What is added. -/
def added : TableChange → Columns
  | .add columns => columns
  | _ => []

/-- What is dropped. -/
def dropped : TableChange → List String
  | .drop names => names
  | _ => []

/-- What is renamed. -/
def renamed : TableChange → List (String × String)
  | .rename names => names
  | _ => []

/-- The names that are to be free. -/
def given (c : TableChange) : List String :=
  c.added.names ++ c.renamed.map (·.2)

/-- The names that are to be there. -/
def taken (c : TableChange) : List String :=
  c.dropped ++ c.renamed.map (·.1)

/-- The names that a change is about. -/
def names (c : TableChange) : List String :=
  c.given ++ c.taken

/-- Whether a change can be performed. -/
structure Fits (c : TableChange) (columns : Columns) : Prop where
  nodup_given : c.given.Nodup
  nodup_taken : c.taken.Nodup
  free : ∀ x ∈ c.given, x ∉ columns.names
  present : ∀ x ∈ c.taken, x ∈ columns.names

instance (c : TableChange) (columns : Columns) : Decidable (c.Fits columns) :=
  decidable_of_iff
    (c.given.Nodup ∧ c.taken.Nodup ∧ (∀ x ∈ c.given, x ∉ columns.names)
      ∧ ∀ x ∈ c.taken, x ∈ columns.names)
    ⟨fun ⟨h₁, h₂, h₃, h₄⟩ => ⟨h₁, h₂, h₃, h₄⟩, fun ⟨h₁, h₂, h₃, h₄⟩ => ⟨h₁, h₂, h₃, h₄⟩⟩

/-- The columns after a change that can be performed. -/
def result (columns : Columns) : TableChange → Columns
  | .add added => columns ++ added
  | .drop dropped => columns.filter (·.1 ∉ dropped)
  | .rename renames => columns.renamed renames

/-- The columns after a change, if it can be performed. -/
def effect? (columns : Columns) (c : TableChange) : Option Columns :=
  if c.Fits columns then some (c.result columns) else none

/-- The columns after changes one after another, if all of them can be performed. -/
def effectAll? (columns : Columns) (cs : List TableChange) : Option Columns :=
  cs.foldlM effect? columns

/-- The place of the kind of a change. -/
def rank : TableChange → Nat
  | .add _ => 0
  | .drop _ => 1
  | .rename _ => 2

/-- All that is added. -/
def allAdded (cs : List TableChange) : Columns :=
  cs.flatMap added

/-- All that is dropped. -/
def allDropped (cs : List TableChange) : List String :=
  cs.flatMap dropped

/-- All that is renamed. -/
def allRenamed (cs : List TableChange) : List (String × String) :=
  cs.flatMap renamed

/-- The changes gathered by kind. -/
def gathered (cs : List TableChange) : List TableChange :=
  (if allAdded cs = [] then [] else [.add (allAdded cs)])
    ++ (if allDropped cs = [] then [] else [.drop (allDropped cs)])
    ++ (if allRenamed cs = [] then [] else [.rename (allRenamed cs)])

/-- Two changes are about different columns. -/
def Apart (c d : TableChange) : Prop :=
  ∀ x ∈ c.names, x ∉ d.names
  deriving Decidable

/-- Changes to one column are of different kinds and stand in the order of the kinds. -/
def InOrder (cs : List TableChange) : Prop :=
  cs.Pairwise fun c d => c.Apart d ∨ c.rank < d.rank
  deriving Decidable

/-! ### Names -/

end TableChange

namespace Columns

variable {columns : Columns} {renames : List (String × String)} {x : String}

theorem mem_names : x ∈ columns.names ↔ ∃ c ∈ columns, c.1 = x := List.mem_map

theorem newName_eq_self (h : x ∉ renames.map (·.1)) :
  newName x renames = x
  := by
  induction renames with
  | nil => rfl
  | cons r renames ih =>
    rw [List.map_cons, List.mem_cons, not_or] at h
    rw [newName, if_neg h.1, ih h.2]

theorem newName_eq_of_mem {old new : String} (hnodup : (renames.map (·.1)).Nodup)
    (h : (old, new) ∈ renames) :
  newName old renames = new
  := by
  induction renames with
  | nil => cases h
  | cons r renames ih =>
    rw [List.map_cons, List.nodup_cons] at hnodup
    rw [List.mem_cons] at h
    rcases h with rfl | h
    · rw [newName, if_pos rfl]
    · have hne : old ≠ r.1 := by
        rintro rfl
        apply hnodup.1 (List.mem_map.mpr ⟨_, h, rfl⟩)
      rw [newName, if_neg hne, ih hnodup.2 h]

/-- A name stays as it is or becomes one of the new names. -/
theorem newName_cases (x : String) (renames : List (String × String)) :
  (x ∉ renames.map (·.1) ∧ newName x renames = x)
    ∨ (x ∈ renames.map (·.1) ∧ newName x renames ∈ renames.map (·.2))
  := by
  induction renames with
  | nil => simp [newName]
  | cons r renames ih =>
    by_cases hx : x = r.1
    · simp [newName, hx]
    · simp only [newName, List.map_cons, List.mem_cons, hx, false_or]
      apply ih.imp_right
      apply And.imp_right Or.inr

theorem newName_append (x : String) (renames renames' : List (String × String)) :
  newName x (renames ++ renames')
    = if x ∈ renames.map (·.1) then newName x renames else newName x renames'
  := by
  induction renames with
  | nil => rfl
  | cons r renames ih =>
    by_cases hx : x = r.1
    · simp [newName, hx]
    · simp only [List.cons_append, newName, ih, List.map_cons, List.mem_cons, hx, false_or,
        if_false]

theorem renamed_eq_self (h : ∀ x ∈ columns.names, x ∉ renames.map (·.1)) :
  columns.renamed renames = columns
  := by
  rw [renamed]
  apply (List.map_congr_left _).trans (List.map_id columns)
  intro column hcolumn
  rw [newName_eq_self (h column.1 (List.mem_map_of_mem hcolumn)), id]

end Columns

namespace TableChange

/-! ### One change -/

variable {c d : TableChange} {columns : Columns} {x : String}

theorem mem_names : x ∈ c.names ↔ x ∈ c.given ∨ x ∈ c.taken := List.mem_append

@[simp]
theorem given_add (added : Columns) : (add added).given = added.names := List.append_nil _

@[simp]
theorem taken_add (added : Columns) : (add added).taken = [] := rfl

@[simp]
theorem given_drop (dropped : List String) : (drop dropped).given = [] := rfl

@[simp]
theorem taken_drop (dropped : List String) : (drop dropped).taken = dropped := List.append_nil _

@[simp]
theorem given_rename (renames : List (String × String)) :
  (rename renames).given = renames.map (·.2)
  := rfl

@[simp]
theorem taken_rename (renames : List (String × String)) :
  (rename renames).taken = renames.map (·.1)
  := rfl

theorem names_add (added : Columns) :
  (add added).names = added.names
  := by
  rw [names, given_add, taken_add, List.append_nil]

theorem names_drop (dropped : List String) :
  (drop dropped).names = dropped
  := by
  rw [names, given_drop, taken_drop, List.nil_append]

theorem names_rename (renames : List (String × String)) :
  (rename renames).names = renames.map (·.2) ++ renames.map (·.1)
  := rfl

theorem Apart.symm (h : c.Apart d) : d.Apart c := fun x hd hc => h x hc hd

theorem mem_names_result (h : c.Fits columns) :
  x ∈ (c.result columns).names ↔ x ∈ c.given ∨ (x ∈ columns.names ∧ x ∉ c.taken)
  := by
  cases c with
  | add added => simp [result, Columns.names, or_comm]
  | drop names => simp [result, Columns.names]
  | rename renames =>
    rw [result, Columns.renamed, Columns.names, List.map_map, List.mem_map, given_rename,
      taken_rename]
    constructor
    · rintro ⟨column, hcolumn, rfl⟩
      rcases Columns.newName_cases column.1 renames with ⟨hout, hself⟩ | ⟨-, hnew⟩
      · right
        change Columns.newName column.1 renames ∈ _ ∧ Columns.newName column.1 renames ∉ _
        rw [hself]
        apply And.intro (List.mem_map_of_mem hcolumn) hout
      · left
        apply hnew
    · rintro (hnew | ⟨hx, hout⟩)
      · obtain ⟨⟨old, new⟩, hrename, rfl⟩ := List.mem_map.mp hnew
        obtain ⟨column, hcolumn, hold⟩ :=
          Columns.mem_names.mp (h.present old (List.mem_map_of_mem hrename))
        use column, hcolumn
        change Columns.newName column.1 renames = new
        rw [hold]
        apply Columns.newName_eq_of_mem h.nodup_taken hrename
      · obtain ⟨column, hcolumn, rfl⟩ := Columns.mem_names.mp hx
        use column, hcolumn
        apply Columns.newName_eq_self hout

/-- Whether a change can be performed depends on the names that it is about. -/
theorem fits_congr {columns' : Columns}
    (h : ∀ x ∈ c.names, x ∈ columns.names ↔ x ∈ columns'.names) :
  c.Fits columns ↔ c.Fits columns'
  := by
  constructor
  · rintro ⟨hgiven, htaken, hfree, hpresent⟩
    use hgiven, htaken
    · intro x hx
      rw [← h x (mem_names.mpr (.inl hx))]
      apply hfree x hx
    · intro x hx
      rw [← h x (mem_names.mpr (.inr hx))]
      apply hpresent x hx
  · rintro ⟨hgiven, htaken, hfree, hpresent⟩
    use hgiven, htaken
    · intro x hx
      rw [h x (mem_names.mpr (.inl hx))]
      apply hfree x hx
    · intro x hx
      rw [h x (mem_names.mpr (.inr hx))]
      apply hpresent x hx

/-- A change to other columns does not matter. -/
theorem fits_result (hc : c.Fits columns) (h : c.Apart d) :
  d.Fits (c.result columns) ↔ d.Fits columns
  := by
  apply fits_congr
  intro x hx
  have hnot : x ∉ c.names := h.symm x hx
  rw [mem_names, not_or] at hnot
  rw [mem_names_result hc]
  simp [hnot]

/-! ### Two changes -/

variable {cs ds : List TableChange}

theorem effectAll?_cons :
  effectAll? columns (c :: cs)
    = if c.Fits columns then effectAll? (c.result columns) cs else none
  := by
  rw [effectAll?, List.foldlM_cons, effect?]
  split <;> rfl

theorem effectAll?_cons_congr (h : ∀ columns, effectAll? columns cs = effectAll? columns ds) :
  effectAll? columns (c :: cs) = effectAll? columns (c :: ds)
  := by
  rw [effectAll?_cons, effectAll?_cons, h]

/-- Changes to different columns can be swapped if they lead to the same columns. -/
theorem effectAll?_swap (h : c.Apart d)
    (hresult : d.result (c.result columns) = c.result (d.result columns)) :
  effectAll? columns (c :: d :: cs) = effectAll? columns (d :: c :: cs)
  := by
  simp only [effectAll?_cons]
  by_cases hc : c.Fits columns
  · by_cases hd : d.Fits columns
    · rw [if_pos hc, if_pos hd, if_pos ((fits_result hc h).mpr hd),
        if_pos ((fits_result hd h.symm).mpr hc), hresult]
    · rw [if_pos hc, if_neg hd, if_neg]
      rwa [fits_result hc h]
  · by_cases hd : d.Fits columns
    · rw [if_neg hc, if_pos hd, if_neg]
      rwa [fits_result hd h.symm]
    · rw [if_neg hc, if_neg hd]

/-- Changes to different columns can be put together. -/
theorem effectAll?_merge {e : TableChange} (h : c.Apart d) (hgiven : e.given = c.given ++ d.given)
    (htaken : e.taken = c.taken ++ d.taken)
    (hresult : e.result columns = d.result (c.result columns)) :
  effectAll? columns (c :: d :: cs) = effectAll? columns (e :: cs)
  := by
  have hfits : e.Fits columns ↔ c.Fits columns ∧ d.Fits columns := by
    constructor
    · rintro ⟨hnodup, hnodup', hfree, hpresent⟩
      rw [hgiven] at hnodup hfree
      rw [htaken] at hnodup' hpresent
      rw [List.nodup_append] at hnodup hnodup'
      rw [List.forall_mem_append] at hfree hpresent
      exact ⟨⟨hnodup.1, hnodup'.1, hfree.1, hpresent.1⟩,
        ⟨hnodup.2.1, hnodup'.2.1, hfree.2, hpresent.2⟩⟩
    · rintro ⟨hc, hd⟩
      constructor
      · rw [hgiven, List.nodup_append]
        use hc.nodup_given, hd.nodup_given
        rintro x hx y hy rfl
        apply h x (mem_names.mpr (.inl hx)) (mem_names.mpr (.inl hy))
      · rw [htaken, List.nodup_append]
        use hc.nodup_taken, hd.nodup_taken
        rintro x hx y hy rfl
        apply h x (mem_names.mpr (.inr hx)) (mem_names.mpr (.inr hy))
      · rw [hgiven, List.forall_mem_append]
        apply And.intro hc.free hd.free
      · rw [htaken, List.forall_mem_append]
        apply And.intro hc.present hd.present
  simp only [effectAll?_cons, hresult]
  by_cases hc : c.Fits columns
  · by_cases hd : d.Fits columns
    · rw [if_pos hc, if_pos ((fits_result hc h).mpr hd), if_pos (hfits.mpr ⟨hc, hd⟩)]
    · rw [if_pos hc, if_neg, if_neg]
      · rw [hfits]
        apply fun hboth => hd hboth.2
      · rwa [fits_result hc h]
  · rw [if_neg hc, if_neg]
    rw [hfits]
    apply fun hboth => hc hboth.1

theorem effectAll?_drop_add {dropped : List String} {added : Columns}
    (h : (drop dropped).Apart (add added)) :
  effectAll? columns (.drop dropped :: .add added :: cs)
    = effectAll? columns (.add added :: .drop dropped :: cs)
  := by
  have hkept : added.filter (·.1 ∉ dropped) = added := by
    rw [List.filter_eq_self]
    intro column hcolumn
    apply decide_eq_true
    intro hdropped
    rw [← names_drop dropped] at hdropped
    apply h column.1 hdropped
    rw [names_add]
    apply List.mem_map_of_mem hcolumn
  apply effectAll?_swap h
  rw [result, result, result, result, List.filter_append, hkept]

theorem effectAll?_rename_add {renames : List (String × String)} {added : Columns}
    (h : (rename renames).Apart (add added)) :
  effectAll? columns (.rename renames :: .add added :: cs)
    = effectAll? columns (.add added :: .rename renames :: cs)
  := by
  have hkept : Columns.renamed added renames = added := by
    apply Columns.renamed_eq_self
    intro x hx hold
    rw [← names_add] at hx
    apply h x (List.mem_append_right _ hold) hx
  have happend : Columns.renamed (columns ++ added) renames
      = columns.renamed renames ++ Columns.renamed added renames := List.map_append
  apply effectAll?_swap h
  rw [result, result, result, result, happend, hkept]

theorem effectAll?_rename_drop {renames : List (String × String)} {dropped : List String}
    (h : (rename renames).Apart (drop dropped)) :
  effectAll? columns (.rename renames :: .drop dropped :: cs)
    = effectAll? columns (.drop dropped :: .rename renames :: cs)
  := by
  have hdropped : ∀ x ∈ (rename renames).names, x ∉ dropped := by
    rw [← names_drop dropped]
    apply h
  rw [names_rename, List.forall_mem_append] at hdropped
  have hnew (x : String) : Columns.newName x renames ∈ dropped ↔ x ∈ dropped := by
    rcases Columns.newName_cases x renames with ⟨-, hself⟩ | ⟨hold, hnew⟩
    · rw [hself]
    · apply iff_of_false (hdropped.1 _ hnew) (hdropped.2 x hold)
  apply effectAll?_swap h
  rw [result, result, result, result, Columns.renamed, Columns.renamed, List.filter_map]
  simp only [Function.comp_def, hnew]

theorem effectAll?_add_add {added added' : Columns} (h : (add added).Apart (add added')) :
  effectAll? columns (.add added :: .add added' :: cs)
    = effectAll? columns (.add (added ++ added') :: cs)
  := by
  apply effectAll?_merge h
  · simp [Columns.names]
  · rfl
  · rw [result, result, result, List.append_assoc]

theorem effectAll?_drop_drop {dropped dropped' : List String}
    (h : (drop dropped).Apart (drop dropped')) :
  effectAll? columns (.drop dropped :: .drop dropped' :: cs)
    = effectAll? columns (.drop (dropped ++ dropped') :: cs)
  := by
  apply effectAll?_merge h
  · rfl
  · simp
  · simp [result, Bool.and_comm]

theorem effectAll?_rename_rename {renames renames' : List (String × String)}
    (h : (rename renames).Apart (rename renames')) :
  effectAll? columns (.rename renames :: .rename renames' :: cs)
    = effectAll? columns (.rename (renames ++ renames') :: cs)
  := by
  have hnew (x : String) : Columns.newName (Columns.newName x renames) renames'
      = Columns.newName x (renames ++ renames') := by
    rw [Columns.newName_append]
    rcases Columns.newName_cases x renames with ⟨hout, hself⟩ | ⟨hold, hnew⟩
    · rw [if_neg hout, hself]
    · rw [if_pos hold]
      apply Columns.newName_eq_self
      intro hold'
      apply h _ (List.mem_append_left _ hnew) (List.mem_append_right _ hold')
  apply effectAll?_merge h
  · simp
  · simp
  · simp [result, Columns.renamed, hnew]

/-! ### Gathering changes -/

/-- The changes gathered by kind, among them those that change nothing. -/
def allKinds (cs : List TableChange) : List TableChange :=
  [.add (allAdded cs), .drop (allDropped cs), .rename (allRenamed cs)]

/-- A change that is about no column can be left out. -/
theorem effectAll?_cons_of_names_eq_nil (hnames : c.names = [])
    (hresult : c.result columns = columns) :
  effectAll? columns (c :: cs) = effectAll? columns cs
  := by
  rw [names, List.append_eq_nil_iff] at hnames
  have hfits : c.Fits columns := by
    constructor
    · rw [hnames.1]
      apply List.nodup_nil
    · rw [hnames.2]
      apply List.nodup_nil
    · rw [hnames.1]
      apply List.forall_mem_nil
    · rw [hnames.2]
      apply List.forall_mem_nil
  rw [effectAll?_cons, if_pos hfits, hresult]

theorem effectAll?_optional {p : Prop} [Decidable p] (hnames : p → c.names = [])
    (hresult : p → ∀ columns, c.result columns = columns)
    (hrest : ∀ columns, effectAll? columns cs = effectAll? columns ds) (columns : Columns) :
  effectAll? columns ((if p then [] else [c]) ++ cs) = effectAll? columns (c :: ds)
  := by
  split
  next h =>
    rw [effectAll?_cons_of_names_eq_nil (hnames h) (hresult h columns)]
    apply hrest
  next => apply effectAll?_cons_congr hrest

theorem effectAll?_gathered (columns : Columns) (cs : List TableChange) :
  effectAll? columns (gathered cs) = effectAll? columns (allKinds cs)
  := by
  rw [gathered, allKinds, List.append_assoc,
    ← List.append_nil (if allRenamed cs = [] then _ else _)]
  apply effectAll?_optional
  · intro h
    rw [h]
    rfl
  · intro h columns
    rw [h, result, List.append_nil]
  apply effectAll?_optional
  · intro h
    rw [h]
    rfl
  · intro h columns
    simp [h, result]
  apply effectAll?_optional
  · intro h
    rw [h]
    rfl
  · intro h columns
    rw [h]
    apply Columns.renamed_eq_self
    simp
  · intro columns
    rfl

section Apart

variable (h : ∀ d ∈ cs, c.Apart d ∨ c.rank < d.rank)

include h

theorem apart_allAdded :
  c.Apart (.add (allAdded cs))
  := by
  intro x hx hadded
  rw [names_add, Columns.names, allAdded, List.map_flatMap, List.mem_flatMap] at hadded
  obtain ⟨d, hd, hxd⟩ := hadded
  cases d with
  | add added =>
    rcases h _ hd with hapart | hrank
    · apply hapart x hx
      rwa [names_add]
    · cases hrank
  | drop dropped => cases hxd
  | rename renames => cases hxd

theorem apart_allDropped (hrank : 1 ≤ c.rank) :
  c.Apart (.drop (allDropped cs))
  := by
  intro x hx hdropped
  rw [names_drop, allDropped, List.mem_flatMap] at hdropped
  obtain ⟨d, hd, hxd⟩ := hdropped
  cases d with
  | add added => cases hxd
  | drop dropped =>
    rcases h _ hd with hapart | hlt
    · apply hapart x hx
      rwa [names_drop]
    · apply absurd hlt (Nat.not_lt.mpr hrank)
  | rename renames => cases hxd

theorem apart_allRenamed (hrank : 2 ≤ c.rank) :
  c.Apart (.rename (allRenamed cs))
  := by
  intro x hx hrenamed
  rw [names_rename, allRenamed, List.map_flatMap, List.map_flatMap, List.mem_append,
    List.mem_flatMap, List.mem_flatMap, ← exists_or] at hrenamed
  obtain ⟨d, hd⟩ := hrenamed
  rw [← and_or_left] at hd
  cases d with
  | add added => cases hd.2 <;> contradiction
  | drop dropped => cases hd.2 <;> contradiction
  | rename renames =>
    rcases h _ hd.1 with hapart | hlt
    · apply hapart x hx (List.mem_append.mpr hd.2)
    · apply absurd hlt (Nat.not_lt.mpr hrank)

end Apart

/-- Gathering changes by kind leads to the same columns if changes to one column are in order. -/
theorem effectAll?_of_inOrder (h : InOrder cs) (columns : Columns) :
  effectAll? columns cs = effectAll? columns (allKinds cs)
  := by
  induction cs generalizing columns with
  | nil =>
    rw [← effectAll?_gathered]
    rfl
  | cons c cs ih =>
    rw [InOrder, List.pairwise_cons] at h
    have hadd := apart_allAdded h.1
    rw [effectAll?_cons_congr (ih h.2)]
    -- The change is moved behind what comes first by kind, and put together with its own kind.
    cases c with
    | add added => apply effectAll?_add_add hadd
    | drop dropped =>
      have hdrop := apart_allDropped h.1 (Nat.le_refl 1)
      apply (effectAll?_drop_add hadd).trans
      apply effectAll?_cons_congr
      intro columns
      apply effectAll?_drop_drop hdrop
    | rename renames =>
      have hdrop := apart_allDropped h.1 (Nat.le_succ 1)
      have hrename := apart_allRenamed h.1 (Nat.le_refl 2)
      apply (effectAll?_rename_add hadd).trans
      apply effectAll?_cons_congr
      intro columns
      apply (effectAll?_rename_drop hdrop).trans
      apply effectAll?_cons_congr
      intro columns
      apply effectAll?_rename_rename hrename

/-! ### What can be performed either way -/

/-- A name that is added, dropped and renamed to. -/
def IsReplaced (cs : List TableChange) (x : String) : Prop :=
  x ∈ (allAdded cs).names ∧ x ∈ allDropped cs ∧ x ∈ (allRenamed cs).map (·.2)

theorem names_allAdded :
  (allAdded cs).names = cs.flatMap (·.added.names)
  := List.map_flatMap

theorem olds_allRenamed :
  (allRenamed cs).map (·.1) = cs.flatMap (·.renamed.map (·.1))
  := List.map_flatMap

theorem news_allRenamed :
  (allRenamed cs).map (·.2) = cs.flatMap (·.renamed.map (·.2))
  := List.map_flatMap

/-- What it takes to perform changes gathered by kind. -/
structure Gathers (cs : List TableChange) (columns : Columns) : Prop where
  added : cs.Pairwise fun c d => c.added.names.Disjoint d.added.names
  dropped : cs.Pairwise fun c d => c.dropped.Disjoint d.dropped
  olds : cs.Pairwise fun c d => (c.renamed.map (·.1)).Disjoint (d.renamed.map (·.1))
  news : cs.Pairwise fun c d => (c.renamed.map (·.2)).Disjoint (d.renamed.map (·.2))
  free : ∀ x ∈ (allAdded cs).names, x ∉ columns.names
  present : ∀ x ∈ allDropped cs, x ∈ columns.names ∨ x ∈ (allAdded cs).names
  kept : ∀ x ∈ (allRenamed cs).map (·.1), x ∉ allDropped cs
  moved : ∀ x ∈ (allRenamed cs).map (·.1), x ∉ (allRenamed cs).map (·.2)

theorem gathers_of_effectAll? {columns' : Columns}
    (h : effectAll? columns (allKinds cs) = some columns') :
  Gathers cs columns
  := by
  simp only [allKinds, effectAll?_cons] at h
  split_ifs at h with hadd hdrop hrename
  have hpresent (x : String) : x ∈ ((add (allAdded cs)).result columns).names
      ↔ x ∈ columns.names ∨ x ∈ (allAdded cs).names := by
    simp [mem_names_result hadd, or_comm]
  have hleft (x : String) :
      x ∈ ((drop (allDropped cs)).result ((add (allAdded cs)).result columns)).names
        ↔ (x ∈ columns.names ∨ x ∈ (allAdded cs).names) ∧ x ∉ allDropped cs := by
    simp [mem_names_result hdrop, hpresent]
  constructor
  · have hnodup := hadd.nodup_given
    rw [given_add, names_allAdded, List.nodup_flatMap] at hnodup
    apply hnodup.2
  · have hnodup := hdrop.nodup_taken
    rw [taken_drop, allDropped, List.nodup_flatMap] at hnodup
    apply hnodup.2
  · have hnodup := hrename.nodup_taken
    rw [taken_rename, olds_allRenamed, List.nodup_flatMap] at hnodup
    apply hnodup.2
  · have hnodup := hrename.nodup_given
    rw [given_rename, news_allRenamed, List.nodup_flatMap] at hnodup
    apply hnodup.2
  · simpa using hadd.free
  · intro x hx
    rw [← hpresent]
    apply hdrop.present x
    rwa [taken_drop]
  · intro x hx
    apply ((hleft x).mp (hrename.present x hx)).2
  · intro x hold hnew
    apply hrename.free x hnew (hrename.present x hold)

theorem exists_given {columns' : Columns} (h : effectAll? columns cs = some columns')
    (hx : x ∉ columns.names) (hx' : x ∈ columns'.names) :
  ∃ c ∈ cs, x ∈ c.given
  := by
  induction cs generalizing columns with
  | nil =>
    cases h
    cases hx hx'
  | cons c cs ih =>
    rw [effectAll?_cons] at h
    split_ifs at h with hfits
    simp only [List.mem_cons, exists_eq_or_imp]
    by_cases hmid : x ∈ (c.result columns).names
    · rw [mem_names_result hfits] at hmid
      apply Or.inl (hmid.resolve_right fun hboth => hx hboth.1)
    · apply Or.inr (ih h hmid)

theorem exists_taken {columns' : Columns} (h : effectAll? columns cs = some columns')
    (hx : x ∈ columns.names) (hx' : x ∉ columns'.names) :
  ∃ c ∈ cs, x ∈ c.taken
  := by
  induction cs generalizing columns with
  | nil =>
    cases h
    cases hx' hx
  | cons c cs ih =>
    rw [effectAll?_cons] at h
    split_ifs at h with hfits
    simp only [List.mem_cons, exists_eq_or_imp]
    by_cases hmid : x ∈ (c.result columns).names
    · apply Or.inr (ih h hmid)
    · rw [mem_names_result hfits, not_or, not_and_not_right] at hmid
      apply Or.inl (hmid.2 hx)

theorem exists_of_effectAll?_middle {columns' : Columns}
    (h : effectAll? columns (cs ++ c :: ds) = some columns') :
  ∃ middle, effectAll? columns cs = some middle ∧ c.Fits middle
    ∧ effectAll? (c.result middle) ds = some columns'
  := by
  rw [effectAll?, List.foldlM_append, Option.bind_eq_bind, Option.bind_eq_some_iff] at h
  obtain ⟨middle, hmiddle, h⟩ := h
  change effectAll? middle (c :: ds) = some columns' at h
  rw [effectAll?_cons] at h
  split_ifs at h with hfits
  use middle, hmiddle, hfits

theorem mem_given : x ∈ c.given ↔ x ∈ c.added.names ∨ x ∈ c.renamed.map (·.2) := List.mem_append

theorem mem_taken : x ∈ c.taken ↔ x ∈ c.dropped ∨ x ∈ c.renamed.map (·.1) := List.mem_append

namespace Gathers

variable {us vs ws : List TableChange} {columns' : Columns}

section

variable (hc : c ∈ cs)

include hc

theorem mem_added (hx : x ∈ c.added.names) :
  x ∈ (allAdded cs).names
  := by
  rw [names_allAdded]
  apply List.mem_flatMap.mpr ⟨c, hc, hx⟩

theorem mem_dropped (hx : x ∈ c.dropped) :
  x ∈ allDropped cs
  := List.mem_flatMap.mpr ⟨c, hc, hx⟩

theorem mem_olds (hx : x ∈ c.renamed.map (·.1)) :
  x ∈ (allRenamed cs).map (·.1)
  := by
  rw [olds_allRenamed]
  apply List.mem_flatMap.mpr ⟨c, hc, hx⟩

theorem mem_news (hx : x ∈ c.renamed.map (·.2)) :
  x ∈ (allRenamed cs).map (·.2)
  := by
  rw [news_allRenamed]
  apply List.mem_flatMap.mpr ⟨c, hc, hx⟩

end

variable (hcs : cs = us ++ c :: (vs ++ d :: ws)) (hwritten : effectAll? columns cs = some columns')
  (hgathers : Gathers cs columns)

include hcs hwritten hgathers

/-- What is taken away and then added was renamed to before. -/
theorem mem_news_of_taken_add (hc : x ∈ c.taken) (hd : x ∈ d.added.names) :
  x ∈ (allRenamed cs).map (·.2)
  := by
  have hadded : x ∈ (allAdded cs).names := mem_added (by simp [hcs]) hd
  rw [hcs] at hwritten
  obtain ⟨middle, hbefore, hfits, -⟩ := exists_of_effectAll?_middle hwritten
  obtain ⟨u, hu, hgiven⟩ := exists_given hbefore (hgathers.free x hadded) (hfits.present x hc)
  rcases mem_given.mp hgiven with hux | hux
  · have hpairs := hgathers.added
    rw [hcs, List.pairwise_append] at hpairs
    cases hpairs.2.2 u hu d (by simp) hux hd
  · apply mem_news _ hux
    simp [hcs, hu]

theorem isReplaced_of_drop_add (hc : x ∈ c.dropped) (hd : x ∈ d.added.names) :
  IsReplaced cs x
  := by
  use mem_added (by simp [hcs]) hd, mem_dropped (by simp [hcs]) hc
  apply hgathers.mem_news_of_taken_add hcs hwritten (mem_taken.mpr (.inl hc)) hd

/-- What is added was not renamed from before. -/
theorem not_rename_from_add (hc : x ∈ c.renamed.map (·.1)) :
  x ∉ d.added.names
  := by
  intro hd
  apply hgathers.moved x (mem_olds (by simp [hcs]) hc)
  apply hgathers.mem_news_of_taken_add hcs hwritten (mem_taken.mpr (.inr hc)) hd

/-- What is renamed to and then added is dropped in between. -/
theorem isReplaced_of_rename_add (hc : x ∈ c.renamed.map (·.2)) (hd : x ∈ d.added.names) :
  IsReplaced cs x
  := by
  have hadded : x ∈ (allAdded cs).names := mem_added (by simp [hcs]) hd
  have hnew : x ∈ (allRenamed cs).map (·.2) := mem_news (by simp [hcs]) hc
  rw [hcs] at hwritten
  obtain ⟨middle, -, hfits, hafter⟩ := exists_of_effectAll?_middle hwritten
  have hthere : x ∈ (c.result middle).names := by
    rw [mem_names_result hfits]
    apply Or.inl (mem_given.mpr (.inr hc))
  obtain ⟨middle', hbetween, hfits', -⟩ := exists_of_effectAll?_middle hafter
  have hgone : x ∉ middle'.names := hfits'.free x (mem_given.mpr (.inl hd))
  obtain ⟨v, hv, htaken⟩ := exists_taken hbetween hthere hgone
  rcases mem_taken.mp htaken with hvx | hvx
  · use hadded, mem_dropped (by simp [hcs, hv]) hvx
  · have hold : x ∈ (allRenamed cs).map (·.1) := by
      apply mem_olds _ hvx
      simp [hcs, hv]
    cases hgathers.moved x hold hnew

/-- What is renamed to and then dropped is added somewhere. -/
theorem isReplaced_of_rename_drop (hc : x ∈ c.renamed.map (·.2)) (hd : x ∈ d.dropped) :
  IsReplaced cs x
  := by
  have hnew : x ∈ (allRenamed cs).map (·.2) := mem_news (by simp [hcs]) hc
  have hdropped : x ∈ allDropped cs := mem_dropped (by simp [hcs]) hd
  rcases hgathers.present x hdropped with hthere | hadded
  · rw [hcs] at hwritten
    obtain ⟨middle, hbefore, hfits, -⟩ := exists_of_effectAll?_middle hwritten
    have hgone : x ∉ middle.names := hfits.free x (mem_given.mpr (.inr hc))
    obtain ⟨u, hu, htaken⟩ := exists_taken hbefore hthere hgone
    rcases mem_taken.mp htaken with hux | hux
    · have hpairs := hgathers.dropped
      rw [hcs, List.pairwise_append] at hpairs
      cases hpairs.2.2 u hu d (by simp) hux hd
    · have hold : x ∈ (allRenamed cs).map (·.1) := by
        apply mem_olds _ hux
        simp [hcs, hu]
      cases hgathers.moved x hold hnew
  · use hadded, hdropped, hnew

/-- Two changes to a column are in order or replace it. -/
theorem rank_lt_or_isReplaced (hc : x ∈ c.names) (hd : x ∈ d.names) :
  c.rank < d.rank ∨ IsReplaced cs x
  := by
  have hpair : ∀ {R : TableChange → TableChange → Prop}, cs.Pairwise R → R c d := by
    intro R hR
    rw [hcs, List.pairwise_append, List.pairwise_cons] at hR
    apply hR.2.1.1 d (by simp)
  have hcmem : c ∈ cs := by simp [hcs]
  have hdmem : d ∈ cs := by simp [hcs]
  cases c with
  | add added =>
    cases d with
    | add added' =>
      rw [names_add] at hc hd
      cases hpair hgathers.added hc hd
    | drop dropped => apply Or.inl Nat.zero_lt_one
    | rename renames => apply Or.inl Nat.zero_lt_two
  | drop dropped =>
    rw [names_drop] at hc
    cases d with
    | add added =>
      rw [names_add] at hd
      apply Or.inr (hgathers.isReplaced_of_drop_add hcs hwritten hc hd)
    | drop dropped' =>
      rw [names_drop] at hd
      cases hpair hgathers.dropped hc hd
    | rename renames => apply Or.inl Nat.one_lt_two
  | rename renames =>
    rw [names_rename, List.mem_append] at hc
    right
    cases d with
    | add added =>
      rw [names_add] at hd
      rcases hc with hc | hc
      · apply hgathers.isReplaced_of_rename_add hcs hwritten hc hd
      · cases hgathers.not_rename_from_add hcs hwritten hc hd
    | drop dropped =>
      rw [names_drop] at hd
      rcases hc with hc | hc
      · apply hgathers.isReplaced_of_rename_drop hcs hwritten hc hd
      · cases hgathers.kept x (mem_olds hcmem hc) (mem_dropped hdmem hd)
    | rename renames' =>
      rw [names_rename, List.mem_append] at hd
      rcases hc with hc | hc
      · rcases hd with hd | hd
        · cases hpair hgathers.news hc hd
        · cases hgathers.moved x (mem_olds hdmem hd) (mem_news hcmem hc)
      · rcases hd with hd | hd
        · cases hgathers.moved x (mem_olds hcmem hc) (mem_news hdmem hd)
        · cases hpair hgathers.olds hc hd

end Gathers

/-- Changes that can be performed one after another and gathered by kind are in order, but for the
columns that are replaced. -/
theorem pairwise_rank_lt {columns' columns'' : Columns}
    (hwritten : effectAll? columns cs = some columns')
    (hgathered : effectAll? columns (gathered cs) = some columns'') :
  cs.Pairwise fun c d => ∀ x ∈ c.names, x ∈ d.names → c.rank < d.rank ∨ IsReplaced cs x
  := by
  rw [effectAll?_gathered] at hgathered
  have hgathers := gathers_of_effectAll? hgathered
  rw [List.pairwise_iff_forall_sublist]
  intro c d hsublist x hc hd
  obtain ⟨first, second, rfl, hfirst, hsecond⟩ := List.cons_sublist_iff.mp hsublist
  obtain ⟨us, vs, rfl⟩ := List.append_of_mem hfirst
  obtain ⟨vs', ws, rfl⟩ := List.append_of_mem (List.singleton_sublist.mp hsecond)
  have hcs : us ++ c :: vs ++ (vs' ++ d :: ws) = us ++ c :: ((vs ++ vs') ++ d :: ws) := by
    simp
  apply hgathers.rank_lt_or_isReplaced hcs hwritten hc hd

end TableChange

end CqlGateway

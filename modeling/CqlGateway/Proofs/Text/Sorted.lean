import CqlGateway.Text.Sorted
import Mathlib.Data.List.Basic

/-!
# Sorted texts

Sorting keeps the members of a list of texts, also where each text is kept only once; then the
texts stand in strictly ascending order.
-/

namespace CqlGateway.Text

variable {texts : List String} {t : String}

theorem mem_insertSorted {s : String} :
  t ∈ insertSorted s texts ↔ t = s ∨ t ∈ texts
  := by
  induction texts with
  | nil => simp [insertSorted]
  | cons u texts ih =>
    unfold insertSorted
    split
    · rw [List.mem_cons, ih, List.mem_cons, or_left_comm]
    · rw [List.mem_cons]

theorem mem_sort :
  t ∈ sort texts ↔ t ∈ texts
  := by
  induction texts with
  | nil => exact Iff.rfl
  | cons s texts ih =>
    rw [sort, List.foldr_cons, mem_insertSorted, List.mem_cons]
    exact or_congr_right ih

theorem mem_insertOnce {s : String} :
  t ∈ insertOnce s texts ↔ t = s ∨ t ∈ texts
  := by
  induction texts with
  | nil => simp [insertOnce]
  | cons u texts ih =>
    unfold insertOnce
    split
    next h =>
      subst h
      simp
    next =>
      split
      · rw [List.mem_cons, ih, List.mem_cons, or_left_comm]
      · rw [List.mem_cons]

theorem mem_sortOnce :
  t ∈ sortOnce texts ↔ t ∈ texts
  := by
  induction texts with
  | nil => exact Iff.rfl
  | cons s texts ih =>
    rw [sortOnce, List.foldr_cons, mem_insertOnce, List.mem_cons]
    exact or_congr_right ih

theorem pairwise_insertOnce (s : String) (h : texts.Pairwise (· < ·)) :
  (insertOnce s texts).Pairwise (· < ·)
  := by
  induction texts with
  | nil => apply List.pairwise_singleton
  | cons t texts ih =>
    rw [List.pairwise_cons] at h
    unfold insertOnce
    split
    next => exact List.pairwise_cons.mpr h
    next hne =>
      split
      next hlt =>
        rw [List.pairwise_cons]
        refine ⟨?_, ih h.2⟩
        intro u hu
        rcases mem_insertOnce.mp hu with rfl | hu
        · exact hlt
        · exact h.1 u hu
      next hlt =>
        have hst : s < t := by
          by_contra hst
          exact hne (String.le_antisymm (String.not_lt.mp hlt) (String.not_lt.mp hst))
        rw [List.pairwise_cons, List.forall_mem_cons]
        refine ⟨⟨hst, ?_⟩, List.pairwise_cons.mpr h⟩
        intro u hu
        exact String.lt_trans hst (h.1 u hu)

theorem pairwise_sortOnce (texts : List String) :
  (sortOnce texts).Pairwise (· < ·)
  := by
  induction texts with
  | nil => apply List.Pairwise.nil
  | cons s texts ih => exact pairwise_insertOnce s ih

theorem nodup_sortOnce (texts : List String) :
  (sortOnce texts).Nodup
  := by
  apply (pairwise_sortOnce texts).imp
  rintro s t hlt rfl
  exact String.lt_irrefl s hlt

/-- The order in which texts are given does not matter, nor how often they are. -/
theorem sortOnce_congr {texts' : List String} (h : ∀ t, t ∈ texts ↔ t ∈ texts') :
  sortOnce texts = sortOnce texts'
  := by
  have hperm : (sortOnce texts).Perm (sortOnce texts') := by
    rw [List.perm_ext_iff_of_nodup (nodup_sortOnce texts) (nodup_sortOnce texts')]
    intro t
    rw [mem_sortOnce, mem_sortOnce, h]
  apply hperm.eq_of_pairwise _ (pairwise_sortOnce texts) (pairwise_sortOnce texts')
  intro s t _ _ hst hts
  exact (String.lt_irrefl s (String.lt_trans hst hts)).elim

end CqlGateway.Text

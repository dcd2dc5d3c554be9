import CqlGateway.Statement.Rejection
import Mathlib.Data.List.Basic

/-!
# How rejections are reported

A failure is reported under a category if it was put there, and also if one of its causes says just
the words that mark the category. What a rejection says may quote any name of a statement, but it
always has words of its own at one of its ends, which no mark has. So a rejection is reported under
the category that is meant for it, which is one of four, and it is never silent.
-/

namespace CqlGateway

/-! ### Marks of categories -/

namespace Category

variable {c : Category} {s : String}

/-- The categories that rejections are reported under. -/
def rejecting : List Category :=
  [.unsupportedFeature, .missingRequiredClause, .ambiguousName, .invalidStatement]

/-- The texts that mark a category. -/
def markers : List String :=
  ranked.filterMap marker?

theorem mem_markers (h : c.marker? = some s) :
  s ∈ markers
  := by
  cases c <;> first | cases h; decide | cases h

/-- How the marks begin. -/
def markFronts : List (List Char) :=
  [['p', 'a', 'r'], ['u', 'n', 's'], ['m', 'i', 's'], ['a', 'm', 'b'], ['i', 'n', 'v'],
   ['e', 'x', 'e'], ['p', 'e', 'r'], ['n', 'o', ' ']]

/-- How the marks end. -/
def markBacks : List (List Char) :=
  [['r', 'o', 'r'], ['u', 'r', 'e'], ['u', 's', 'e'], ['i', 'o', 'n'], ['e', 'n', 't'],
   ['i', 'e', 'd'], ['t', 'o', 'r']]

theorem exists_markFront (h : c.marker? = some s) :
  ∃ f ∈ markFronts, f <+: s.toList
  := by
  have hany : markFronts.any (·.isPrefixOf s.toList) = true := by
    cases c <;> cases h <;> decide
  simpa using hany

theorem exists_markBack (h : c.marker? = some s) :
  ∃ b ∈ markBacks, b <:+ s.toList
  := by
  have hany : markBacks.any (·.isSuffixOf s.toList) = true := by
    cases c <;> cases h <;> decide
  simpa using hany

/-- A text marks no category if no mark begins as it does. -/
theorem marker?_ne_of_front {front : List Char}
    (h : markFronts.all (fun f => f.length ≤ front.length && !f.isPrefixOf front) = true)
    (rest : String) (c : Category) :
  c.marker? ≠ some (String.ofList front ++ rest)
  := by
  intro hmarker
  obtain ⟨f, hf, hprefix⟩ := exists_markFront hmarker
  have hall := List.all_eq_true.mp h f hf
  simp only [Bool.and_eq_true, decide_eq_true_eq, Bool.not_eq_true'] at hall
  obtain ⟨hlength, hne⟩ := hall
  have hfront : front <+: (String.ofList front ++ rest).toList := by simp
  have hshort : f <+: front := List.prefix_of_prefix_length_le hprefix hfront hlength
  rw [List.isPrefixOf_iff_prefix.mpr hshort] at hne
  cases hne

/-- A text marks no category if no mark ends as it does. -/
theorem marker?_ne_of_back {back : List Char}
    (h : markBacks.all (fun b => b.length ≤ back.length && !b.isSuffixOf back) = true)
    (rest : String) (c : Category) :
  c.marker? ≠ some (rest ++ String.ofList back)
  := by
  intro hmarker
  obtain ⟨b, hb, hsuffix⟩ := exists_markBack hmarker
  have hall := List.all_eq_true.mp h b hb
  simp only [Bool.and_eq_true, decide_eq_true_eq, Bool.not_eq_true'] at hall
  obtain ⟨hlength, hne⟩ := hall
  have hback : back <:+ (rest ++ String.ofList back).toList := by simp
  have hshort : b <:+ back := List.suffix_of_suffix_length_le hsuffix hback hlength
  rw [List.isSuffixOf_iff_suffix.mpr hshort] at hne
  cases hne

end Category

namespace Rejection

theorem marker?_ne_message (r : Rejection) (c : Category) :
  c.marker? ≠ some r.message
  := by
  have hfixed {s : String} (h : s ∉ Category.markers) : c.marker? ≠ some s :=
    fun hmarker => h (Category.mem_markers hmarker)
  cases r <;> dsimp only [message] <;>
    first
    | exact hfixed (by decide)
    | exact Category.marker?_ne_of_back (by decide) _ c
    | (simp only [String.append_assoc]; exact Category.marker?_ne_of_front (by decide) _ c)
    | exact Category.marker?_ne_of_front (by decide) _ c

theorem isIn_failure (r : Rejection) (c : Category) :
  r.failure.isIn c = decide (c = r.category)
  := by
  unfold failure
  cases r.hint? <;> simp [Failure.isIn, r.marker?_ne_message c]

theorem category_mem (r : Rejection) :
  r.category ∈ Category.rejecting
  := by
  cases r <;> dsimp only [category] <;> decide

/-- A rejection is reported under its own category. -/
theorem category_failure (r : Rejection) :
  r.failure.category = r.category
  := by
  have hisIn : r.failure.isIn = fun c => decide (c = r.category) := funext r.isIn_failure
  rw [Failure.category, hisIn]
  generalize r.category = d
  cases d <;> rfl

theorem message_ne_empty (r : Rejection) :
  r.message ≠ ""
  := by
  cases r <;> dsimp only [message] <;> simp [String.append_eq_empty_iff]

end Rejection

end CqlGateway

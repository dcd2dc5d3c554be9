import CqlGateway.Cql.ColumnType
import CqlGateway.Proofs.Text.Case

/-!
# Column types and their names

A name stands for one of the types of the table, in lists or not. A mark of a list behind a name
stands for the list of what the name stands for. Letter case and the blanks around a name do not
matter. The marks are read from the end of a name, and what is left of it is trimmed anew each
time; so the name before a mark need only be trimmed at its front.
-/

namespace CqlGateway.Cql.ColumnType

open Text (isBlank trimBack trimChars trimFront upperChar)

variable {mark s : String}

/-- A list of lists, and so on, of single values. -/
def nested : Nat → ScalarType → ColumnType
  | 0, type => .scalar type
  | depth + 1, type => .list (nested depth type)

theorem cql_nested (depth : Nat) (type : ScalarType) :
  (nested depth type).cql
    = String.join (List.replicate depth "list<") ++ type.name
      ++ String.join (List.replicate depth ">")
  := by
  induction depth with
  | zero => simp [nested, cql]
  | succ depth ih =>
    rw [nested, cql, ih]
    rw [List.replicate_succ, List.replicate_succ', String.join_cons, String.join_append]
    simp [String.append_assoc]

/-! ### Names that differ in case or in blanks -/

/-- Only the capital letters of a name without the blanks around it matter. -/
theorem ofSource_eq (source : String) :
  ofSource source = ofReversed false (trimChars (source.toList.map upperChar)).reverse
  := by
  rw [ofSource, Text.trimChars_map Text.isBlank_upperChar]

theorem ofSource_congr {t : String}
    (h : s.toList.map upperChar = t.toList.map upperChar) :
  ofSource s = ofSource t
  := by
  rw [ofSource_eq, h, ofSource_eq]

theorem ofSource_of_toLower_eq {t : String} (h : s.toLower = t.toLower) :
  ofSource s = ofSource t
  := by
  have hupper (u : String) :
      u.toList.map upperChar = u.toLower.toList.map upperChar := by
    have hlower : u.toLower.toList = u.toList.map Char.toLower := String.toList_map
    rw [hlower, List.map_map]
    apply List.map_congr_left
    intro c _
    exact (Text.upperChar_toLower c).symm
  apply ofSource_congr
  rw [hupper s, h, hupper t]

theorem ofSource_blanks {before after : String} (hbefore : before.toList.all isBlank = true)
    (hafter : after.toList.all isBlank = true) (s : String) :
  ofSource (before ++ s ++ after) = ofSource s
  := by
  rw [ofSource, String.toList_append, String.toList_append, Text.trimChars_blanks hbefore hafter,
    ofSource]

/-! ### Marks of lists -/

theorem ofReversed_blank {c : Char} (hc : isBlank c = true) (cs : List Char) :
  ofReversed true (c :: cs) = ofReversed true cs
  := by
  rw [ofReversed]
  · simp [hc]
  · rintro rest ⟨⟩
    cases hc
  · rintro rest ⟨⟩
    cases hc

theorem ofReversed_solid {c : Char} (hc : isBlank c = false) (cs : List Char) :
  ofReversed true (c :: cs) = ofReversed false (c :: cs)
  := by
  rw [ofReversed.eq_def, ofReversed.eq_def false]
  split <;> simp_all

/-- Blanks behind a mark of a list are skipped. -/
theorem ofReversed_true (cs : List Char) :
  ofReversed true cs = ofReversed false (cs.dropWhile isBlank)
  := by
  induction cs with
  | nil => rfl
  | cons c cs ih =>
    cases hc : isBlank c with
    | true => rw [List.dropWhile_cons_of_pos hc, ofReversed_blank hc, ih]
    | false => rw [List.dropWhile_cons_of_neg (by simp [hc]), ofReversed_solid hc]

/-- What stands behind a name for a list. -/
inductive IsListMark : String → Prop
  | brackets : IsListMark "[]"
  | word : IsListMark " ARRAY"

theorem IsListMark.endsSolid (h : IsListMark mark) :
  Text.endsSolid mark.toList = true
  := by
  cases h <;> decide

theorem IsListMark.map_upperChar (h : IsListMark mark) :
  mark.toList.map upperChar = mark.toList
  := by
  cases h <;> decide

/-- A mark of a list is read off the end of a name. -/
theorem IsListMark.ofReversed_append (h : IsListMark mark) (cs : List Char) :
  ofReversed false (cs ++ mark.toList).reverse
    = (.list (ofReversed true cs.reverse).1, (ofReversed true cs.reverse).2)
  := by
  rw [List.reverse_append]
  cases h <;> rfl

/-- A name before a mark of a list stands for the list, if the mark is not trimmed. -/
theorem IsListMark.ofSource_append (h : IsListMark mark)
    (hfront : trimFront (s.toList ++ mark.toList) = trimFront s.toList ++ mark.toList) :
  ofSource (s ++ mark) = (.list (ofSource s).1, (ofSource s).2)
  := by
  have hback : trimBack (trimFront s.toList ++ mark.toList)
      = trimFront s.toList ++ mark.toList :=
    Text.trimBack_of_endsSolid (Text.endsSolid_append h.endsSolid _)
  -- The name before the mark is only trimmed at its front so far.
  have hs : ofReversed true ((trimFront s.toList).map upperChar).reverse
      = ofSource s := by
    have hblank : isBlank ∘ upperChar = isBlank := funext Text.isBlank_upperChar
    rw [ofReversed_true, ← List.map_reverse, List.dropWhile_map, hblank, ofSource,
      trimChars, trimBack, List.map_reverse, List.reverse_reverse]
  rw [ofSource, String.toList_append, trimChars, hfront, hback, List.map_append,
    h.map_upperChar, h.ofReversed_append, hs]

theorem ofSource_brackets (s : String) :
  ofSource (s ++ "[]") = (.list (ofSource s).1, (ofSource s).2)
  := by
  apply IsListMark.brackets.ofSource_append
  exact Text.trimFront_append (by decide) s.toList

/-- The word for a list needs a name before it, without which it would be the name itself. -/
theorem ofSource_array (h : Text.trim s ≠ "") :
  ofSource (s ++ " ARRAY") = (.list (ofSource s).1, (ofSource s).2)
  := by
  apply IsListMark.word.ofSource_append
  have hfront : trimFront s.toList ≠ [] := by
    intro hnil
    apply h
    rw [Text.trim, trimChars, hnil]
    rfl
  rw [trimFront, List.dropWhile_append, ← trimFront, if_neg (by simpa using hfront)]

/-! ### The types that names stand for -/

/-- A name stands for a type of the table, in lists or not; an unknown one stands for text. -/
theorem ofReversed_eq_nested (trimming : Bool) (cs : List Char) :
  ∃ depth type, (ofReversed trimming cs).1 = nested depth type
    ∧ (∃ name, (name, type) ∈ table)
    ∧ ((ofReversed trimming cs).2 = false → type = .text)
  := by
  have hbase (cs : List Char) : ∃ depth type, (ofBase cs).1 = nested depth type
      ∧ (∃ name, (name, type) ∈ table) ∧ ((ofBase cs).2 = false → type = .text) := by
    unfold ofBase
    split
    next type htype =>
      obtain ⟨before, after, htable, -⟩ := List.lookup_eq_some_iff.mp htype
      have hmem : (baseName cs, type) ∈ table := by
        rw [htable]
        exact List.mem_append_right _ List.mem_cons_self
      exact ⟨0, type, rfl, ⟨_, hmem⟩, fun h => by cases h⟩
    next => exact ⟨0, .text, rfl, ⟨"TEXT", by decide⟩, fun _ => rfl⟩
  fun_induction ofReversed trimming cs with
  | case1 trimming rest element known heq ih =>
    obtain ⟨depth, type, hdepth, htype, hknown⟩ := ih
    rw [heq] at hdepth hknown
    exact ⟨depth + 1, type, congrArg _ hdepth, htype, hknown⟩
  | case2 trimming rest element known heq ih =>
    obtain ⟨depth, type, hdepth, htype, hknown⟩ := ih
    rw [heq] at hdepth hknown
    exact ⟨depth + 1, type, congrArg _ hdepth, htype, hknown⟩
  | case3 trimming c rest _ _ _ ih => exact ih
  | case4 trimming c rest => exact hbase _
  | case5 => exact hbase _

theorem ofSource_of_mem_table :
  ∀ e ∈ table, ofSource e.1 = (.scalar e.2, true)
  := by
  decide +kernel

/-- The type that a name stands for is written as one of the types of the table inside of lists, so
nothing of the name is written; it is text if the name is not known. The marks of a list stand for
the list of what the name before them stands for. Neither the case of plain letters nor the blanks
around a name matter. The names of the table stand for their types. -/
theorem ofSource_structural (s : String) :
  (∃ depth type,
      (ofSource s).1.cql = String.join (List.replicate depth "list<") ++ type.name
        ++ String.join (List.replicate depth ">")
      ∧ (∃ name, (name, type) ∈ table)
      ∧ ((ofSource s).2 = false → type = .text))
    ∧ ofSource (s ++ "[]") = (.list (ofSource s).1, (ofSource s).2)
    ∧ (Text.trim s ≠ "" → ofSource (s ++ " ARRAY") = (.list (ofSource s).1, (ofSource s).2))
    ∧ (∀ t : String, t.toLower = s.toLower → ofSource t = ofSource s)
    ∧ (∀ before after : String, before.toList.all isBlank = true →
      after.toList.all isBlank = true → ofSource (before ++ s ++ after) = ofSource s)
    ∧ ∀ e ∈ table, ofSource e.1 = (.scalar e.2, true)
  := by
  refine ⟨?_, ofSource_brackets s, ofSource_array, fun t => ofSource_of_toLower_eq,
    fun before after hbefore hafter => ofSource_blanks hbefore hafter s, ofSource_of_mem_table⟩
  obtain ⟨depth, type, hnested, htype, hknown⟩ := ofReversed_eq_nested false
    ((trimChars s.toList).map upperChar).reverse
  refine ⟨depth, type, ?_, htype, hknown⟩
  rw [ofSource, hnested, cql_nested]

/-- A list of texts of a length, in mixed letters and between blanks. -/
theorem ofSource_structural_varchar :
  Text.trim "VarChar (4)[]" ≠ "" ∧ "vARcHAR (4)[]".toLower = "VarChar (4)[]".toLower
    ∧ ("\t ".toList.all isBlank && "\n".toList.all isBlank) = true
    ∧ ofSource ("VarChar (4)[]" ++ " ARRAY") = (.list (.list (.scalar .text)), true)
    ∧ ofSource "vARcHAR (4)[]" = (.list (.scalar .text), true)
    ∧ ofSource ("\t " ++ "VarChar (4)[]" ++ "\n") = (.list (.scalar .text), true)
    ∧ ofSource "VARCHAR" = (.scalar .text, true)
  := by
  have hs : ofSource "VarChar (4)[]" = (.list (.scalar .text), true) := by decide
  have htrim : Text.trim "VarChar (4)[]" ≠ "" := by decide
  have hcase : "vARcHAR (4)[]".toLower = "VarChar (4)[]".toLower := by
    change String.map Char.toLower _ = String.map Char.toLower _
    rw [← String.toList_inj, String.toList_map, String.toList_map]
    decide
  obtain ⟨-, -, harray, hletters, hblanks, htable⟩ := ofSource_structural "VarChar (4)[]"
  rw [hs] at harray hletters hblanks
  refine ⟨htrim, hcase, by decide, ?_, ?_, ?_, ?_⟩
  · exact harray htrim
  · exact hletters _ hcase
  · exact hblanks _ _ (by decide) (by decide)
  · exact htable ("VARCHAR", .text) (by decide)

end CqlGateway.Cql.ColumnType

import CqlGateway.Text.Blank
import Mathlib.Data.List.Basic
import Mathlib.Data.List.TakeWhile

/-!
# Texts without blanks at their ends

Trimming leaves a text as it is that starts and ends with characters other than blanks, and takes
away blanks that are put around such a text. Words that are put together with single blanks are
read back as they were.
-/

namespace CqlGateway.Text

variable {bs cs ds : List Char} {P : Char → Prop}

/-- Whether a text starts with a character other than a blank. -/
def startsSolid (cs : List Char) : Bool :=
  cs.head?.any fun c => !isBlank c

/-- Whether a text ends with a character other than a blank. -/
def endsSolid (cs : List Char) : Bool :=
  cs.getLast?.any fun c => !isBlank c

theorem endsSolid_iff_reverse (cs : List Char) :
  endsSolid cs = startsSolid cs.reverse
  := by
  rw [endsSolid, startsSolid, List.head?_reverse]

theorem endsSolid_append (hds : endsSolid ds = true) (cs : List Char) :
  endsSolid (cs ++ ds) = true
  := by
  have hne : ds ≠ [] := by
    rintro rfl
    cases hds
  rw [endsSolid, List.getLast?_append_of_ne_nil cs hne]
  apply hds

theorem startsSolid_append (hcs : startsSolid cs = true) (ds : List Char) :
  startsSolid (cs ++ ds) = true
  := by
  cases cs with
  | nil => cases hcs
  | cons c cs => apply hcs

theorem trimFront_of_startsSolid (h : startsSolid cs = true) :
  trimFront cs = cs
  := by
  cases cs with
  | nil => rfl
  | cons c cs =>
    have hc : isBlank c = false := by simpa [startsSolid] using h
    simp [trimFront, hc]

theorem trimBack_of_endsSolid (h : endsSolid cs = true) :
  trimBack cs = cs
  := by
  rw [endsSolid_iff_reverse] at h
  rw [trimBack, ← trimFront, trimFront_of_startsSolid h, List.reverse_reverse]

theorem trimFront_blanks (hbs : bs.all isBlank = true) (cs : List Char) :
  trimFront (bs ++ cs) = trimFront cs
  := by
  induction bs with
  | nil => rfl
  | cons b bs ih =>
    rw [List.all_cons, Bool.and_eq_true] at hbs
    simp only [trimFront, List.cons_append, List.dropWhile_cons, hbs.1, if_true]
    apply ih hbs.2

/-- Trimming takes away blanks before a text that starts and ends solid. -/
theorem trimChars_blanks_append (hbs : bs.all isBlank = true) (hstart : startsSolid cs = true)
    (hend : endsSolid cs = true) :
  trimChars (bs ++ cs) = cs
  := by
  rw [trimChars, trimFront_blanks hbs, trimFront_of_startsSolid hstart,
    trimBack_of_endsSolid hend]

theorem trimChars_of_solid (hstart : startsSolid cs = true) (hend : endsSolid cs = true) :
  trimChars cs = cs
  := by
  have h := trimChars_blanks_append (rfl : ([] : List Char).all isBlank = true) hstart hend
  rwa [List.nil_append] at h

/-- Trimming at the end leaves alone what stands before a text that starts solid. -/
theorem trimBack_append (hstart : startsSolid cs = true) (ds : List Char) :
  trimBack (ds ++ cs) = ds ++ trimBack cs
  := by
  have hne : ¬ cs.reverse.dropWhile isBlank = [] := by
    cases cs with
    | nil => cases hstart
    | cons c cs =>
      have hc : isBlank c = false := by simpa [startsSolid] using hstart
      intro h
      have hblank := List.dropWhile_eq_nil_iff.mp h c (by simp)
      rw [hc] at hblank
      cases hblank
  rw [trimBack, List.reverse_append, List.dropWhile_append,
    if_neg (by simpa using hne), List.reverse_append, List.reverse_reverse, trimBack]

theorem startsSolid_trimBack (hstart : startsSolid cs = true) :
  startsSolid (trimBack cs) = true
  := by
  cases cs with
  | nil => cases hstart
  | cons c cs =>
    have hc : isBlank c = false := by simpa [startsSolid] using hstart
    by_cases h : (cs.reverse.dropWhile isBlank) = []
    · simp [trimBack, List.dropWhile_append, h, startsSolid, hc]
    · simp [trimBack, List.dropWhile_append, h, startsSolid, hc]

theorem endsSolid_trimBack (hstart : startsSolid cs = true) :
  endsSolid (trimBack cs) = true
  := by
  have hsolid := startsSolid_trimBack hstart
  rw [endsSolid_iff_reverse, trimBack, List.reverse_reverse]
  rw [trimBack] at hsolid
  cases h : cs.reverse.dropWhile isBlank with
  | nil =>
    rw [h] at hsolid
    cases hsolid
  | cons c ds =>
    have hc := List.head?_dropWhile_not isBlank cs.reverse
    rw [h] at hc
    simpa [startsSolid] using hc

/-- Trimming at the end keeps what a text starts with up to a character other than a blank. -/
theorem prefix_trimBack_append (hend : endsSolid cs = true) (ds : List Char) :
  cs <+: trimBack (cs ++ ds)
  := by
  rw [trimBack, List.reverse_append, List.dropWhile_append]
  split
  · have h := trimBack_of_endsSolid hend
    rw [trimBack] at h
    exact ⟨[], by rw [List.append_nil, h]⟩
  · rw [List.reverse_append, List.reverse_reverse]
    apply List.prefix_append

/-! ### What is trimmed -/

theorem exists_blanks_append_trimFront (cs : List Char) :
  ∃ bs, bs.all isBlank = true ∧ bs ++ trimFront cs = cs
  := ⟨cs.takeWhile isBlank, List.all_takeWhile, List.takeWhile_append_dropWhile⟩

theorem exists_trimBack_append_blanks (cs : List Char) :
  ∃ bs, bs.all isBlank = true ∧ trimBack cs ++ bs = cs
  := by
  obtain ⟨bs, hbs, heq⟩ := exists_blanks_append_trimFront cs.reverse
  refine ⟨bs.reverse, by rwa [List.all_reverse], ?_⟩
  rw [trimBack, ← trimFront, ← List.reverse_append, heq, List.reverse_reverse]

theorem trimFront_eq_nil_or_startsSolid (cs : List Char) :
  trimFront cs = [] ∨ startsSolid (trimFront cs) = true
  := by
  have hhead := List.head?_dropWhile_not isBlank cs
  rw [← trimFront] at hhead
  cases h : trimFront cs with
  | nil => exact .inl rfl
  | cons c ds =>
    rw [h] at hhead
    exact .inr (by simpa [startsSolid] using hhead)

theorem trimChars_eq_nil_or_solid (cs : List Char) :
  trimChars cs = [] ∨ startsSolid (trimChars cs) = true ∧ endsSolid (trimChars cs) = true
  := by
  rcases trimFront_eq_nil_or_startsSolid cs with hnil | hstart
  · exact .inl (by rw [trimChars, hnil]; rfl)
  · exact .inr ⟨startsSolid_trimBack hstart, endsSolid_trimBack hstart⟩

@[simp]
theorem trimChars_trimChars (cs : List Char) :
  trimChars (trimChars cs) = trimChars cs
  := by
  rcases trimChars_eq_nil_or_solid cs with hnil | ⟨hstart, hend⟩
  · rw [hnil]
    rfl
  · exact trimChars_of_solid hstart hend

/-- A text that starts solid is kept when what stands before it is trimmed at the front. -/
theorem trimFront_append (hds : startsSolid ds = true) (cs : List Char) :
  trimFront (cs ++ ds) = trimFront cs ++ ds
  := by
  rw [trimFront, List.dropWhile_append, ← trimFront, ← trimFront, trimFront_of_startsSolid hds]
  split
  next hnil => rw [List.isEmpty_iff.mp hnil, List.nil_append]
  next => rfl

theorem trimBack_blanks (hbs : bs.all isBlank = true) (cs : List Char) :
  trimBack (cs ++ bs) = trimBack cs
  := by
  rw [← List.all_reverse] at hbs
  rw [trimBack, List.reverse_append, ← trimFront, trimFront_blanks hbs, trimFront, trimBack]

/-- It does not matter at which end a text is trimmed first. -/
theorem trimFront_trimBack (cs : List Char) :
  trimFront (trimBack cs) = trimBack (trimFront cs)
  := by
  obtain ⟨bs, hbs, heq⟩ := exists_blanks_append_trimFront cs
  rcases trimFront_eq_nil_or_startsSolid cs with hnil | hstart
  · have hblank := trimBack_blanks hbs []
    rw [hnil, List.append_nil] at heq
    rw [List.nil_append, heq] at hblank
    rw [hblank, hnil]
    rfl
  · have hback := trimBack_append hstart bs
    rw [heq] at hback
    rw [hback, trimFront_blanks hbs, trimFront_of_startsSolid (startsSolid_trimBack hstart)]

theorem trimChars_blanks (hbs : bs.all isBlank = true) (hds : ds.all isBlank = true)
    (cs : List Char) :
  trimChars (bs ++ cs ++ ds) = trimChars cs
  := by
  rw [List.append_assoc, trimChars, trimFront_blanks hbs, ← trimFront_trimBack,
    trimBack_blanks hds, trimFront_trimBack, trimChars]

/-- A map that neither makes nor removes blanks can be applied before or after trimming. -/
theorem trimChars_map {f : Char → Char} (hf : ∀ c, isBlank (f c) = isBlank c) (cs : List Char) :
  trimChars (cs.map f) = (trimChars cs).map f
  := by
  have hblank : isBlank ∘ f = isBlank := funext hf
  simp only [trimChars, trimBack, trimFront, List.dropWhile_map, hblank, ← List.map_reverse]

/-! ### Words -/

theorem wordsFrom_append (hcs : ∀ c ∈ cs, isBlank c = false) (word rest : List Char) :
  wordsFrom word (cs ++ rest) = wordsFrom (cs.reverse ++ word) rest
  := by
  induction cs generalizing word with
  | nil => rfl
  | cons c cs ih =>
    rw [List.forall_mem_cons] at hcs
    rw [List.cons_append, wordsFrom, if_neg (by simp [hcs.1]), ih hcs.2, List.reverse_cons,
      List.append_assoc, List.singleton_append]

/-- A word of a text has characters of the text only, none of which is blank. -/
theorem forall_of_mem_wordsFrom {word : List Char} (hword : ∀ c ∈ word, P c)
    (hcs : ∀ c ∈ cs, isBlank c = false → P c) :
  ∀ w ∈ wordsFrom word cs, w ≠ [] ∧ ∀ c ∈ w, P c
  := by
  fun_induction wordsFrom word cs with
  | case1 word hnil => exact List.forall_mem_nil _
  | case2 word hne =>
    rw [List.forall_mem_singleton]
    exact ⟨by simpa using hne, by simpa using hword⟩
  | case3 word c cs hblank hnil ih =>
    rw [List.forall_mem_cons] at hcs
    apply ih (List.forall_mem_nil _) hcs.2
  | case4 word c cs hblank hne ih =>
    rw [List.forall_mem_cons] at hcs ⊢
    exact ⟨⟨by simpa using hne, by simpa using hword⟩, ih (List.forall_mem_nil _) hcs.2⟩
  | case5 word c cs hsolid ih =>
    rw [List.forall_mem_cons] at hcs
    apply ih (List.forall_mem_cons.mpr ⟨hcs.1 (by simpa using hsolid), hword⟩) hcs.2

theorem wordsFrom_intercalate {ws : List (List Char)}
    (h : ∀ w ∈ ws, w ≠ [] ∧ ∀ c ∈ w, isBlank c = false) :
  wordsFrom [] (List.intercalate [' '] ws) = ws
  := by
  have hlast {w : List Char} (hne : w ≠ []) : wordsFrom w.reverse [] = [w] := by
    simp [wordsFrom, hne]
  have hnext {w : List Char} (hne : w ≠ []) (rest : List Char) :
      wordsFrom w.reverse (' ' :: rest) = w :: wordsFrom [] rest := by
    simp [wordsFrom, hne, isBlank]
  induction ws with
  | nil => rfl
  | cons w ws ih =>
    rw [List.forall_mem_cons] at h
    obtain ⟨⟨hne, hsolid⟩, hrest⟩ := h
    cases ws with
    | nil =>
      have hread := wordsFrom_append hsolid [] []
      rw [List.append_nil, List.append_nil, hlast hne] at hread
      rw [List.intercalate_singleton, hread]
    | cons w' ws =>
      rw [List.intercalate_cons_cons, List.append_assoc, wordsFrom_append hsolid,
        List.append_nil, List.singleton_append, hnext hne, ih hrest]

theorem forall_mem_intercalate {sep : List Char} (hsep : ∀ c ∈ sep, P c) {ws : List (List Char)}
    (hws : ∀ w ∈ ws, ∀ c ∈ w, P c) :
  ∀ c ∈ List.intercalate sep ws, P c
  := by
  induction ws with
  | nil => exact List.forall_mem_nil _
  | cons w ws ih =>
    rw [List.forall_mem_cons] at hws
    cases ws with
    | nil =>
      rw [List.intercalate_singleton]
      apply hws.1
    | cons w' ws =>
      rw [List.intercalate_cons_cons, List.forall_mem_append, List.forall_mem_append]
      exact ⟨⟨hws.1, hsep⟩, ih hws.2⟩

/-- The words of a text, put together with single blanks, have the same words. -/
theorem words_intercalate_words (s : String) :
  words (String.intercalate " " (words s)) = words s
  := by
  have hsolid : ∀ w ∈ wordsFrom [] s.toList, w ≠ [] ∧ ∀ c ∈ w, isBlank c = false :=
    forall_of_mem_wordsFrom (List.forall_mem_nil _) fun _ _ hc => hc
  rw [words, String.toList_intercalate, words, List.map_map]
  simp only [Function.comp_def, String.toList_ofList, List.map_id']
  congr 1
  apply wordsFrom_intercalate hsolid

/-- What holds of the blank and of every character of a text holds of every character of its words
with single blanks between them. -/
theorem forall_mem_intercalate_words {s : String} (hblank : P ' ') (hs : ∀ c ∈ s.toList, P c) :
  ∀ c ∈ (String.intercalate " " (words s)).toList, P c
  := by
  have hwords : ∀ w ∈ wordsFrom [] s.toList, w ≠ [] ∧ ∀ c ∈ w, P c :=
    forall_of_mem_wordsFrom (List.forall_mem_nil _) fun c hc _ => hs c hc
  rw [String.toList_intercalate, words, List.map_map]
  simp only [Function.comp_def, String.toList_ofList, List.map_id']
  apply forall_mem_intercalate
  · exact List.forall_mem_singleton.mpr hblank
  · exact fun w hw => (hwords w hw).2

end CqlGateway.Text

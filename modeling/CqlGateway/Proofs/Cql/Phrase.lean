import CqlGateway.Cql.Expression
import CqlGateway.Proofs.Execution.Splitting

/-!
# What renderings are made of

A rendering is put together from fixed words, from names and texts in their quotes, and from texts
that are copied as they are: numbers, names of functions, parameters. `Phrase raw` holds of the
texts that can be put together so if `raw` holds of the texts that are copied.

A phrase is closed if the copied texts are, and ends with a character other than a blank if they
do. Both follow by induction on the phrase, so what is left for a rendering is to see that it is a
phrase.
-/

namespace CqlGateway.Cql

open Execution

variable {cs : List Char} {comments : Bool}

/-- Whether a fixed text can stand as a phrase. -/
def isWord (s : String) : Bool :=
  leadsOut s.toList && Text.endsSolid s.toList

/-- Whether a fixed text can stand before a phrase. -/
def isLead (s : String) : Bool :=
  leadsOut s.toList

/-- Whether a fixed text can stand between two phrases. -/
def isSeparator (s : String) : Bool :=
  leadsOut s.toList && startsApart s.toList && !s.toList.isEmpty

/-- Whether a fixed text can stand behind a phrase. -/
def isTrail (s : String) : Bool :=
  leadsOut s.toList && startsApart s.toList && Text.endsSolid s.toList

/-- The texts that are put together from fixed words, quoted names, quoted texts and texts of which
`raw` holds. -/
inductive Phrase (raw : String → Prop) : String → Prop where
  | word {s : String} : isWord s = true → Phrase raw s
  | name (s : String) : Phrase raw (quoteIdentifier s)
  | text (s : String) : Phrase raw (quoteText s)
  | copied {s : String} : raw s → Phrase raw s
  | before {left s : String} : isLead left = true → Phrase raw s → Phrase raw (left ++ s)
  | behind {s right : String} : Phrase raw s → isTrail right = true → Phrase raw (s ++ right)
  | join {s sep t : String} :
      Phrase raw s → isSeparator sep = true → Phrase raw t → Phrase raw (s ++ sep ++ t)
  | minus {s : String} : Expr.startsWithSign s = false → Phrase raw s → Phrase raw ("-" ++ s)

/-! ### Quoted names and texts -/

theorem isNameChar_opening {c : Char} (hc : isNameChar c = true) :
  Mark.opening c = .plain ∧ c ≠ ';'
  := by
  have hne : ∀ d : Char, isNameChar d = false → c ≠ d := by
    rintro d hd rfl
    rw [hd] at hc
    cases hc
  simp [Mark.opening, hne '-' (by decide), hne '/' (by decide), hne '\x27' (by decide),
    hne '"' (by decide), hne ';' (by decide)]

theorem leadsOut_of_nameChars (hcs : cs.all isNameChar = true) :
  leadsOut cs = true
  := by
  have hwalk : walk false .plain cs = some .plain := by
    induction cs with
    | nil => rfl
    | cons c cs ih =>
      rw [List.all_cons, Bool.and_eq_true] at hcs
      obtain ⟨hopening, hend⟩ := isNameChar_opening hcs.1
      have hnext : Mark.plain.next? false c = some .plain := by
        simp [Mark.next?, Mark.ends, Mark.next, hopening, hend]
      rw [walk_cons, hnext]
      apply ih hcs.2
  simpa [leadsOut] using hwalk

theorem nameChars_of_isPlain (hcs : isPlain cs = true) :
  cs.all isNameChar = true
  := by
  cases cs with
  | nil => rfl
  | cons c cs =>
    simp only [isPlain, isNameStart, Bool.and_eq_true, Bool.or_eq_true] at hcs
    simp only [List.all_cons, isNameChar, Char.isAlphanum, Bool.and_eq_true, Bool.or_eq_true]
    refine ⟨?_, hcs.2⟩
    rcases hcs.1 with halpha | hline
    · exact .inl (.inl halpha)
    · exact .inr hline

theorem code_of_isNameChar {c : Char} (hc : isNameChar c = true) :
  (65 ≤ c.toNat ∧ c.toNat ≤ 90) ∨ (97 ≤ c.toNat ∧ c.toNat ≤ 122) ∨ (48 ≤ c.toNat ∧ c.toNat ≤ 57)
    ∨ c.toNat = 95
  := by
  change (decide ('A'.val ≤ c.val ∧ c.val ≤ 'Z'.val)
    || (decide ('a'.val ≤ c.val) && decide (c.val ≤ 'z'.val))
    || (decide ('0'.val ≤ c.val) && decide (c.val ≤ '9'.val)) || decide (c = '_')) = true at hc
  simp only [Bool.or_eq_true, Bool.and_eq_true, decide_eq_true_eq, UInt32.le_iff_toNat_le] at hc
  rcases hc with ((hcapital | hsmall) | hdigit) | rfl
  · exact .inl hcapital
  · exact .inr (.inl hsmall)
  · exact .inr (.inr (.inl hdigit))
  · exact .inr (.inr (.inr rfl))

theorem isBlank_of_isNameChar {c : Char} (hc : isNameChar c = true) :
  Text.isBlank c = false
  := by
  have hcode := code_of_isNameChar hc
  simp [Text.isBlank]
  omega

/-- A text that is not empty and holds no blanks ends with a character other than a blank. -/
theorem endsSolid_of_nameChars (hcs : cs.all isNameChar = true) (hne : cs ≠ []) :
  Text.endsSolid cs = true
  := by
  have hlast : isNameChar (cs.getLast hne) = true :=
    List.all_eq_true.mp hcs _ (List.getLast_mem hne)
  rw [Text.endsSolid, List.getLast?_eq_some_getLast hne, Option.any_some,
    isBlank_of_isNameChar hlast]
  rfl

theorem isWord_of_isPlain {s : String} (hs : isPlain s.toList = true) :
  isWord s = true
  := by
  have hchars := nameChars_of_isPlain hs
  have hne : s.toList ≠ [] := by
    intro h
    rw [h] at hs
    cases hs
  rw [isWord, leadsOut_of_nameChars hchars, endsSolid_of_nameChars hchars hne]
  rfl

/-- Inside quotes, a text whose quotes are doubled stays inside. -/
theorem walk_doubled {quote : Char} {inside : Mark} (behind : Mark)
    (hquote : inside.next? comments quote = some behind)
    (hagain : behind.next? comments quote = some inside)
    (hother : ∀ c, c ≠ quote → inside.next? comments c = some inside) (cs : List Char) :
  walk comments inside (doubled quote cs) = some inside
  := by
  induction cs with
  | nil => rfl
  | cons c cs ih =>
    rw [doubled, List.flatMap_cons, ← doubled, walk_append]
    by_cases hc : c = quote
    · subst hc
      simpa [walk_cons, hquote, hagain] using ih
    · simpa [walk_cons, hc, hother c hc] using ih

theorem closed_quoteText (comments : Bool) (s : String) :
  Closed comments (quoteText s).toList
  := by
  have hinside : walk comments .literal (doubled '\x27' s.toList) = some .literal := by
    apply walk_doubled .quote
    · cases comments <;> rfl
    · cases comments <;> rfl
    · intro c hc
      simp [Mark.next?, Mark.ends, Mark.isOutside, Mark.next, hc]
  refine ⟨.quote, ?_, rfl⟩
  rw [quoteText, String.toList_ofList, List.cons_append, walk_cons]
  cases comments
    <;> simp [Mark.next?, Mark.ends, Mark.next, Mark.opening, Mark.isOutside, walk_append,
      walk_cons, hinside]

theorem leadsOut_quoteBare (s : String) :
  leadsOut (quoteBare s).toList = true
  := by
  unfold quoteBare
  split
  next hbare =>
    rw [isBare, Bool.and_eq_true] at hbare
    apply leadsOut_of_nameChars (nameChars_of_isPlain hbare.1)
  next =>
    have hinside : walk false .name (doubled '"' s.toList) = some .name := by
      apply walk_doubled .plain
      · rfl
      · rfl
      · intro c hc
        simp [Mark.next?, Mark.ends, Mark.isOutside, Mark.next, hc]
    have hwalk : walk false .plain ('"' :: doubled '"' s.toList ++ ['"']) = some .plain := by
      rw [List.cons_append, walk_cons]
      simp [Mark.next?, Mark.ends, Mark.next, Mark.opening, Mark.isOutside, walk_append, walk_cons,
        hinside]
    simpa [leadsOut] using hwalk

theorem endsSolid_quoteBare (s : String) :
  Text.endsSolid (quoteBare s).toList = true
  := by
  unfold quoteBare
  split
  next hbare =>
    rw [isBare, Bool.and_eq_true] at hbare
    have hword := isWord_of_isPlain hbare.1
    rw [isWord, Bool.and_eq_true] at hword
    apply hword.2
  next =>
    rw [String.toList_ofList]
    apply Text.endsSolid_append rfl

/-! ### What holds of every phrase -/

/-- Behind a dash, a text that starts with none is read as from the start. -/
theorem walk_dash (hcs : cs.head? ≠ some '-') (hne : cs ≠ []) :
  walk comments .dash cs = walk comments .plain cs
  := by
  cases cs with
  | nil => cases hne rfl
  | cons c cs =>
    have hc : c ≠ '-' := by simpa using hcs
    have hnext : Mark.dash.next c = Mark.plain.next c := by simp [Mark.next, hc]
    have hnext? : Mark.dash.next? comments c = Mark.plain.next? comments c := by
      rw [Mark.next?, hnext]
      rfl
    rw [walk_cons, walk_cons, hnext?]

theorem closed_minus (hsign : cs.head? ≠ some '-') (hcs : Closed comments cs) :
  Closed comments ('-' :: cs)
  := by
  have hdash : Mark.plain.next? comments '-' = some .dash := by cases comments <;> rfl
  rw [Closed, walk_cons, hdash, Option.bind_some]
  by_cases hne : cs = []
  · subst hne
    exact ⟨.dash, rfl, rfl⟩
  · rw [walk_dash hsign hne]
    apply hcs

variable {raw : String → Prop}

theorem Phrase.closed (hraw : ∀ s, raw s → Closed comments s.toList) {s : String}
    (h : Phrase raw s) :
  Closed comments s.toList
  := by
  induction h with
  | word hs =>
    rw [isWord, Bool.and_eq_true] at hs
    apply closed_of_leadsOut hs.1
  | name s => apply closed_of_leadsOut (leadsOut_quoteBare _)
  | text s => apply closed_quoteText
  | copied hs => apply hraw _ hs
  | before hleft _ ih =>
    rw [String.toList_append]
    apply (closed_append_iff hleft).mpr ih
  | behind _ hright ih =>
    rw [isTrail, Bool.and_eq_true, Bool.and_eq_true] at hright
    rw [String.toList_append]
    apply ih.append (closed_of_leadsOut hright.1.1) hright.1.2
  | join _ hsep _ ihs iht =>
    rw [isSeparator, Bool.and_eq_true, Bool.and_eq_true] at hsep
    rw [String.toList_append, String.toList_append]
    apply ihs.join iht hsep.1.1 hsep.1.2
    simpa using hsep.2
  | minus hsign _ ih =>
    simp only [Expr.startsWithSign, Bool.or_eq_false_iff, decide_eq_false_iff_not] at hsign
    rw [String.toList_append]
    apply closed_minus hsign.1 ih

theorem Phrase.endsSolid
    (hraw : ∀ s, raw s → Text.endsSolid s.toList = true) {s : String} (h : Phrase raw s) :
  Text.endsSolid s.toList = true
  := by
  induction h with
  | word hs =>
    rw [isWord, Bool.and_eq_true] at hs
    apply hs.2
  | name s => apply endsSolid_quoteBare
  | text s =>
    rw [quoteText, String.toList_ofList]
    apply Text.endsSolid_append rfl
  | copied hs => apply hraw _ hs
  | before _ _ ih =>
    rw [String.toList_append]
    apply Text.endsSolid_append ih
  | behind _ hright _ =>
    rw [isTrail, Bool.and_eq_true] at hright
    rw [String.toList_append]
    apply Text.endsSolid_append hright.2
  | join _ _ _ _ iht =>
    rw [String.toList_append]
    apply Text.endsSolid_append iht
  | minus _ _ ih =>
    rw [String.toList_append]
    apply Text.endsSolid_append ih

/-! ### Putting phrases together -/

namespace Phrase

variable {ss : List String}

theorem intercalate {sep : String} (hsep : isSeparator sep = true) (hne : ss ≠ [])
    (hss : ∀ s ∈ ss, Phrase raw s) :
  Phrase raw (String.intercalate sep ss)
  := by
  induction ss with
  | nil => cases hne rfl
  | cons s ss ih =>
    have hs := hss s List.mem_cons_self
    cases ss with
    | nil => simpa using hs
    | cons t ss =>
      rw [String.intercalate_cons_cons]
      apply hs.join hsep
      apply ih (List.cons_ne_nil t ss)
      intro u hu
      apply hss u (List.mem_cons_of_mem s hu)

theorem enclosed {left right : String} (hleft : isLead left = true) (hright : isTrail right = true)
    (hboth : isWord (left ++ right) = true) (hss : ∀ s ∈ ss, Phrase raw s) :
  Phrase raw (Expr.enclosed left right ss)
  := by
  by_cases hne : ss = []
  · subst hne
    apply word
    simpa [Expr.enclosed] using hboth
  · apply behind _ hright
    apply before hleft
    apply intercalate (by decide) hne hss

theorem call {f : String} (hf : Phrase raw f) (hss : ∀ s ∈ ss, Phrase raw s) :
  Phrase raw (f ++ Expr.enclosed "(" ")" ss)
  := by
  by_cases hne : ss = []
  · subst hne
    apply behind hf (by decide)
  · rw [Expr.enclosed, ← String.append_assoc, ← String.append_assoc]
    apply behind _ (by decide)
    apply join hf (by decide)
    apply intercalate (by decide) hne hss

end Phrase

theorem phrase_tableName (t : TableName) :
  Phrase raw t.cql
  := by
  unfold TableName.cql
  split
  · apply Phrase.name
  · apply Phrase.join (.name _) (by decide) (.name _)

end CqlGateway.Cql

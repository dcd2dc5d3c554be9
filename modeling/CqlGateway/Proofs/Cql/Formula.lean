import CqlGateway.Cql.Identifier
import Mathlib.Data.List.Forall2

/-!
# Reading a predicate

A predicate is read from its text with the usual precedence: parentheses bind most, then
comparisons, then `AND`, then `OR`. The text is divided into words at the blanks that stand outside
of parentheses and quotes. The words are divided at `OR`, each of the parts at `AND`, and what is
left is a predicate in parentheses or a comparison.

A formula is evaluated for truth values that are given to its comparisons one by one, from left to
right.
-/

namespace CqlGateway.Cql

variable {cs ds : List Char} {words : List (List Char)} {c : Char}

/-- A formula over comparisons. -/
inductive Formula (α : Type) where
  | comparison (a : α)
  | all (parts : List (Formula α))
  | any (parts : List (Formula α))

namespace Formula

variable {α β : Type}

mutual

/-- The comparisons of a formula from left to right. -/
def comparisons : Formula α → List α
  | .comparison a => [a]
  | .all parts => comparisonsOf parts
  | .any parts => comparisonsOf parts

/-- The comparisons of formulas from left to right. -/
def comparisonsOf : List (Formula α) → List α
  | [] => []
  | f :: fs => f.comparisons ++ comparisonsOf fs

end

mutual

/-- The truth value of a formula, given the truth values of comparisons by their numbers and the
number of its first comparison. -/
def truth (v : Nat → Bool) (n : Nat) : Formula α → Bool
  | .comparison _ => v n
  | .all parts => truthOfAll v n parts
  | .any parts => truthOfAny v n parts

/-- Whether all formulas are true. -/
def truthOfAll (v : Nat → Bool) (n : Nat) : List (Formula α) → Bool
  | [] => true
  | f :: fs => f.truth v n && truthOfAll v (n + f.comparisons.length) fs

/-- Whether any of the formulas is true. -/
def truthOfAny (v : Nat → Bool) (n : Nat) : List (Formula α) → Bool
  | [] => false
  | f :: fs => f.truth v n || truthOfAny v (n + f.comparisons.length) fs

end

theorem comparisonsOf_append (fs gs : List (Formula α)) :
  comparisonsOf (fs ++ gs) = comparisonsOf fs ++ comparisonsOf gs
  := by
  induction fs with
  | nil => rfl
  | cons f fs ih => rw [List.cons_append, comparisonsOf, comparisonsOf, ih, List.append_assoc]

theorem truthOfAll_append (v : Nat → Bool) (n : Nat) (fs gs : List (Formula α)) :
  truthOfAll v n (fs ++ gs)
    = (truthOfAll v n fs && truthOfAll v (n + (comparisonsOf fs).length) gs)
  := by
  induction fs generalizing n with
  | nil => rfl
  | cons f fs ih =>
    rw [List.cons_append, truthOfAll, truthOfAll, ih, comparisonsOf, List.length_append,
      Nat.add_assoc, Bool.and_assoc]

theorem truthOfAny_append (v : Nat → Bool) (n : Nat) (fs gs : List (Formula α)) :
  truthOfAny v n (fs ++ gs)
    = (truthOfAny v n fs || truthOfAny v (n + (comparisonsOf fs).length) gs)
  := by
  induction fs generalizing n with
  | nil => rfl
  | cons f fs ih =>
    rw [List.cons_append, truthOfAny, truthOfAny, ih, comparisonsOf, List.length_append,
      Nat.add_assoc, Bool.or_assoc]

theorem comparisons_all_pair (f g : Formula α) :
  (Formula.all [f, g]).comparisons = f.comparisons ++ g.comparisons
  := by
  simp [comparisons, comparisonsOf]

theorem comparisons_any_pair (f g : Formula α) :
  (Formula.any [f, g]).comparisons = f.comparisons ++ g.comparisons
  := by
  simp [comparisons, comparisonsOf]

theorem truth_all_pair (v : Nat → Bool) (n : Nat) (f g : Formula α) :
  (Formula.all [f, g]).truth v n = (f.truth v n && g.truth v (n + f.comparisons.length))
  := by
  simp [truth, truthOfAll]

theorem truth_any_pair (v : Nat → Bool) (n : Nat) (f g : Formula α) :
  (Formula.any [f, g]).truth v n = (f.truth v n || g.truth v (n + f.comparisons.length))
  := by
  simp [truth, truthOfAny]

end Formula

/-! ### Words -/

/-- The words of a text: it is divided at the blanks that stand outside of quotes and parentheses.
The arguments are the open quote, the number of open parentheses and what has been read of the
current word, reversed. -/
def wordsFrom : Option Char → Nat → List Char → List Char → Option (List (List Char))
  | none, 0, word, [] => some (if word.isEmpty then [] else [word.reverse])
  | _, _, _, [] => none
  | some quote, depth, word, c :: cs =>
    wordsFrom (if c = quote then none else some quote) depth (c :: word) cs
  | none, depth, word, c :: cs =>
    if c = '\x27' || c = '"' then wordsFrom (some c) depth (c :: word) cs
    else if c = '(' then wordsFrom none (depth + 1) (c :: word) cs
    else if c = ')' then
      if depth = 0 then none else wordsFrom none (depth - 1) (c :: word) cs
    else if Text.isBlank c && depth = 0 then
      if word.isEmpty then wordsFrom none 0 [] cs
      else (wordsFrom none 0 [] cs).map (word.reverse :: ·)
    else wordsFrom none depth (c :: word) cs

/-- The words of a text. -/
def words? (cs : List Char) : Option (List (List Char)) :=
  wordsFrom none 0 [] cs

/-- Whether a word is the given keyword, in any case of letters. -/
def isKeyword (keyword : String) (word : List Char) : Bool :=
  word.map Text.upperChar = keyword.toList

/-! ### Texts that are not divided -/

attribute [local simp] wordsFrom

/-- A text that is not divided, wherever it stands. -/
def Compact (cs : List Char) : Prop :=
  ∀ depth word rest,
    wordsFrom none depth word (cs ++ rest) = wordsFrom none depth (cs.reverse ++ word) rest

/-- A text that is not divided inside parentheses. -/
def Nested (cs : List Char) : Prop :=
  ∀ depth word rest,
    wordsFrom none (depth + 1) word (cs ++ rest)
      = wordsFrom none (depth + 1) (cs.reverse ++ word) rest

theorem Compact.nested (h : Compact cs) :
  Nested cs
  := fun depth word rest => h (depth + 1) word rest

theorem Compact.append (hcs : Compact cs) (hds : Compact ds) :
  Compact (cs ++ ds)
  := by
  intro depth word rest
  rw [List.append_assoc, hcs, hds, List.reverse_append, List.append_assoc]

theorem Nested.append (hcs : Nested cs) (hds : Nested ds) :
  Nested (cs ++ ds)
  := by
  intro depth word rest
  rw [List.append_assoc, hcs, hds, List.reverse_append, List.append_assoc]

/-- Whether a character neither opens nor closes nor divides anything. -/
def isWordChar (c : Char) : Bool :=
  c ≠ '\x27' && c ≠ '"' && c ≠ '(' && c ≠ ')' && !Text.isBlank c

theorem wordsFrom_of_isWordChar (hc : isWordChar c = true) (depth : Nat) (word cs : List Char) :
  wordsFrom none depth word (c :: cs) = wordsFrom none depth (c :: word) cs
  := by
  simp only [isWordChar, Bool.and_eq_true, decide_eq_true_eq, Bool.not_eq_true'] at hc
  obtain ⟨⟨⟨⟨hquote, hname⟩, hopen⟩, hclose⟩, hblank⟩ := hc
  simp [hquote, hname, hopen, hclose, hblank]

theorem wordsFrom_quote (hc : c = '\x27' ∨ c = '"') (depth : Nat) (word cs : List Char) :
  wordsFrom none depth word (c :: cs) = wordsFrom (some c) depth (c :: word) cs
  := by
  simp [hc]

theorem wordsFrom_inside (quote c : Char) (depth : Nat) (word cs : List Char) :
  wordsFrom (some quote) depth word (c :: cs)
    = wordsFrom (if c = quote then none else some quote) depth (c :: word) cs
  := by
  rw [wordsFrom]

theorem wordsFrom_blank_inside (hc : Text.isBlank c = true) (depth : Nat) (word cs : List Char) :
  wordsFrom none (depth + 1) word (c :: cs) = wordsFrom none (depth + 1) (c :: word) cs
  := by
  have hne : ∀ d : Char, Text.isBlank d = false → c ≠ d := by
    rintro d hd rfl
    rw [hd] at hc
    cases hc
  simp [hne '\x27' (by decide), hne '"' (by decide), hne '(' (by decide),
    hne ')' (by decide)]

theorem compact_of_isWordChar (h : cs.all isWordChar = true) :
  Compact cs
  := by
  intro depth word rest
  induction cs generalizing word with
  | nil => rfl
  | cons c cs ih =>
    rw [List.all_cons, Bool.and_eq_true] at h
    rw [List.cons_append, wordsFrom_of_isWordChar h.1, ih h.2]
    simp

theorem nested_blank (hc : Text.isBlank c = true) :
  Nested [c]
  := fun depth word rest => wordsFrom_blank_inside hc depth word rest

/-- Inside quotes, a text whose quotes are doubled is not divided. -/
theorem wordsFrom_doubled {quote : Char} (hquote : quote = '\x27' ∨ quote = '"') (depth : Nat)
    (word cs rest : List Char) :
  wordsFrom (some quote) depth word (doubled quote cs ++ rest)
    = wordsFrom (some quote) depth ((doubled quote cs).reverse ++ word) rest
  := by
  induction cs generalizing word with
  | nil => rfl
  | cons c cs ih =>
    rw [doubled, List.flatMap_cons, ← doubled]
    by_cases hc : c = quote
    · subst hc
      rw [if_pos rfl, List.append_assoc, List.cons_append, List.singleton_append,
        wordsFrom_inside, if_pos rfl, wordsFrom_quote hquote, ih]
      simp
    · rw [if_neg hc, List.append_assoc, List.singleton_append, wordsFrom_inside, if_neg hc, ih]
      simp

theorem compact_quoted {quote : Char} (hquote : quote = '\x27' ∨ quote = '"') (cs : List Char) :
  Compact (quote :: doubled quote cs ++ [quote])
  := by
  intro depth word rest
  rw [List.cons_append, List.cons_append, List.append_assoc, wordsFrom_quote hquote,
    wordsFrom_doubled hquote, List.singleton_append, wordsFrom_inside, if_pos rfl]
  simp

theorem Nested.compact_group (h : Nested cs) :
  Compact ('(' :: cs ++ [')'])
  := by
  intro depth word rest
  have hopen : wordsFrom none depth word ('(' :: (cs ++ ')' :: rest))
      = wordsFrom none (depth + 1) ('(' :: word) (cs ++ ')' :: rest) := by
    simp
  have hclose (word : List Char) : wordsFrom none (depth + 1) word (')' :: rest)
      = wordsFrom none depth (')' :: word) rest := by
    simp
  rw [List.cons_append, List.cons_append, List.append_assoc, List.singleton_append, hopen, h,
    hclose]
  simp

theorem nested_intercalate {sep : List Char} (hsep : Nested sep) {css : List (List Char)}
    (h : ∀ cs ∈ css, Nested cs) :
  Nested (List.intercalate sep css)
  := by
  induction css with
  | nil => exact fun _ _ _ => rfl
  | cons cs css ih =>
    rw [List.forall_mem_cons] at h
    cases css with
    | nil => simpa using h.1
    | cons ds css =>
      rw [List.intercalate_cons_cons, List.append_assoc]
      apply h.1.append (hsep.append (ih h.2))

/-- The words of a text in which undivided words stand side by side. -/
theorem words?_intercalate (h : ∀ word ∈ words, Compact word ∧ word ≠ []) :
  words? (List.intercalate [' '] words) = some words
  := by
  induction words with
  | nil => rfl
  | cons word words ih =>
    rw [List.forall_mem_cons] at h
    obtain ⟨⟨hcompact, hne⟩, hrest⟩ := h
    have hempty : word.reverse.isEmpty = false := by simpa using hne
    cases words with
    | nil =>
      have hread := hcompact 0 [] []
      rw [List.append_nil, List.append_nil] at hread
      rw [List.intercalate_singleton, words?, hread]
      simp [hempty]
    | cons other words =>
      rw [List.intercalate_cons_cons, List.append_assoc, words?, hcompact, List.append_nil,
        List.singleton_append]
      have hblank (cs : List Char) : wordsFrom none 0 word.reverse (' ' :: cs)
          = (wordsFrom none 0 [] cs).map (word :: ·) := by
        simp [hne, Text.isBlank]
      rw [hblank, ← words?, ih hrest, Option.map_some]

/-! ### Formulas -/

/-- What a word holds between parentheses. -/
def inner? : List Char → Option (List Char)
  | '(' :: cs => if cs.getLast? = some ')' then some cs.dropLast else none
  | _ => none

/-- Read words between which there is no logical operator: a predicate in parentheses, or a
comparison. -/
def readUnit (readGroup : List Char → Option (Formula String)) :
    List (List Char) → Option (Formula String)
  | [] => none
  | word :: words =>
    match words, inner? word with
    | [], some cs => readGroup cs
    | _, _ => some (.comparison (String.ofList (List.intercalate [' '] (word :: words))))

/-- Read words between which there is no disjunction. -/
def readConjunction (readGroup : List Char → Option (Formula String)) (words : List (List Char)) :
    Option (Formula String) :=
  .all <$> (words.splitOnP (isKeyword "AND")).mapM (readUnit readGroup)

/-- Read a predicate in which parentheses are nested less deep than the given number. -/
def readWithin : Nat → List Char → Option (Formula String)
  | 0, _ => none
  | depth + 1, cs => do
    let words ← words? cs
    .any <$> (words.splitOnP (isKeyword "OR")).mapM (readConjunction (readWithin depth))

/-- Read a predicate. -/
def readPredicate (text : String) : Option (Formula String) :=
  readWithin (text.length + 1) text.toList

/-! ### Readings of a text -/

/-- A text is read as the given formulas, one for each part between two occurrences of a keyword,
and holds none of the excluded keywords. -/
def ReadsParts (keyword : String)
    (readPart : (List Char → Option (Formula String)) → List (List Char) → Option (Formula String))
    (excluded : List String) (cs : List Char) (fs : List (Formula String)) : Prop :=
  ∃ words, cs = List.intercalate [' '] words ∧ words ≠ []
    ∧ (∀ word ∈ words, Compact word ∧ word ≠ [])
    ∧ (∀ word ∈ words, ∀ other ∈ excluded, isKeyword other word = false)
    ∧ ∀ depth, cs.length ≤ depth →
      (words.splitOnP (isKeyword keyword)).mapM (readPart (readWithin depth)) = some fs

/-- A text is read as a conjunction of the given formulas. -/
def ReadsAll : List Char → List (Formula String) → Prop :=
  ReadsParts "AND" readUnit ["OR"]

/-- A text is read as a disjunction of the given formulas. -/
def ReadsAny : List Char → List (Formula String) → Prop :=
  ReadsParts "OR" readConjunction []

/-- Words with a blank between two runs of them. -/
theorem intercalate_append {others : List (List Char)} (hwords : words ≠ [])
    (hothers : others ≠ []) :
  List.intercalate [' '] (words ++ others)
    = List.intercalate [' '] words ++ ' ' :: List.intercalate [' '] others
  := by
  obtain ⟨first, words, rfl⟩ := List.exists_cons_of_ne_nil hwords
  obtain ⟨other, others, rfl⟩ := List.exists_cons_of_ne_nil hothers
  induction words generalizing first with
  | nil => simp [List.intercalate_cons_cons]
  | cons next words ih =>
    have h := ih next (List.cons_ne_nil next words)
    simp only [List.cons_append, List.intercalate_cons_cons, List.append_assoc] at h ⊢
    rw [h]

variable {fs gs : List (Formula String)}

theorem ReadsParts.append {keyword : String}
    {readPart : (List Char → Option (Formula String)) → List (List Char) → Option (Formula String)}
    {excluded : List String} (hcompact : Compact keyword.toList ∧ keyword.toList ≠ [])
    (hkeyword : isKeyword keyword keyword.toList = true)
    (hexcluded : ∀ other ∈ excluded, isKeyword other keyword.toList = false)
    (hcs : ReadsParts keyword readPart excluded cs fs)
    (hds : ReadsParts keyword readPart excluded ds gs) :
  ReadsParts keyword readPart excluded (cs ++ (' ' :: keyword.toList ++ [' ']) ++ ds) (fs ++ gs)
  := by
  obtain ⟨words, rfl, hwords, hsolid, hothers, hread⟩ := hcs
  obtain ⟨words', rfl, hwords', hsolid', hothers', hread'⟩ := hds
  refine ⟨words ++ keyword.toList :: words', ?_, by simp, ?_, ?_, ?_⟩
  · have hjoin : List.intercalate [' '] (keyword.toList :: words')
        = keyword.toList ++ ' ' :: List.intercalate [' '] words' := by
      simpa using intercalate_append (List.cons_ne_nil keyword.toList []) hwords'
    rw [intercalate_append hwords (List.cons_ne_nil _ _), hjoin]
    simp
  · rw [List.forall_mem_append, List.forall_mem_cons]
    exact ⟨hsolid, hcompact, hsolid'⟩
  · rw [List.forall_mem_append, List.forall_mem_cons]
    exact ⟨hothers, hexcluded, hothers'⟩
  · intro depth hdepth
    simp only [List.length_append] at hdepth
    rw [List.splitOnP_append_cons _ _ hkeyword, List.mapM_append, hread depth (by omega),
      hread' depth (by omega)]
    rfl

theorem ReadsAll.append (hcs : ReadsAll cs fs) (hds : ReadsAll ds gs) :
  ReadsAll (cs ++ " AND ".toList ++ ds) (fs ++ gs)
  := ReadsParts.append ⟨compact_of_isWordChar (by decide), by decide⟩ (by decide) (by decide) hcs hds

theorem ReadsAny.append (hcs : ReadsAny cs fs) (hds : ReadsAny ds gs) :
  ReadsAny (cs ++ " OR ".toList ++ ds) (fs ++ gs)
  := ReadsParts.append ⟨compact_of_isWordChar (by decide), by decide⟩ (by decide) (by decide) hcs hds

theorem ReadsAll.any (h : ReadsAll cs fs) :
  ReadsAny cs [.all fs]
  := by
  obtain ⟨words, rfl, hwords, hsolid, hothers, hread⟩ := h
  refine ⟨words, rfl, hwords, hsolid, by simp, ?_⟩
  intro depth hdepth
  have hor : ∀ word ∈ words, isKeyword "OR" word = false :=
    fun word hword => hothers word hword "OR" (by simp)
  rw [List.splitOnP_eq_singleton hor]
  simp [readConjunction, hread depth hdepth]

/-- A disjunction is read as a whole if the bound on its nesting is above its length. -/
theorem ReadsAny.readWithin (h : ReadsAny cs fs) {depth : Nat} (hdepth : cs.length < depth) :
  readWithin depth cs = some (.any fs)
  := by
  obtain ⟨words, rfl, -, hsolid, -, hread⟩ := h
  obtain ⟨depth, rfl⟩ := Nat.exists_eq_succ_of_ne_zero (Nat.ne_zero_of_lt hdepth)
  simp [Cql.readWithin, words?_intercalate hsolid, hread depth (by omega)]

/-- A word with a character that no letter of the keyword is the capital of. -/
theorem isKeyword_eq_false {keyword : String} {word : List Char} (hc : c ∈ word)
    (hcapital : Text.upperChar c ∉ keyword.toList) :
  isKeyword keyword word = false
  := by
  rw [isKeyword, decide_eq_false_iff_not]
  intro h
  apply hcapital
  rw [← h]
  apply List.mem_map_of_mem hc

theorem ReadsAny.group (h : ReadsAny cs fs) :
  ReadsAll ('(' :: cs ++ [')']) [.any fs]
  := by
  have hcompact : Compact ('(' :: cs ++ [')']) := by
    obtain ⟨words, rfl, -, hsolid, -⟩ := h
    apply Nested.compact_group
    apply nested_intercalate (nested_blank rfl)
    exact fun word hword => (hsolid word hword).1.nested
  have hopen : '(' ∈ '(' :: cs ++ [')'] := by simp
  have hand : isKeyword "AND" ('(' :: cs ++ [')']) = false := isKeyword_eq_false hopen (by decide)
  have hor : isKeyword "OR" ('(' :: cs ++ [')']) = false := isKeyword_eq_false hopen (by decide)
  refine ⟨['(' :: cs ++ [')']], by simp, by simp, ?_, by simpa using hor, ?_⟩
  · simpa using hcompact
  · intro depth hdepth
    have hread : Cql.readWithin depth cs = some (.any fs) := by
      apply h.readWithin
      simp only [List.length_append, List.length_cons] at hdepth
      omega
    rw [List.splitOnP_eq_singleton (by simpa using hand)]
    simp [readUnit, inner?, hread]

/-- Words without a keyword are read as a comparison, unless they are a single one. -/
theorem readsAll_comparison {first second : List Char}
    (hsolid : ∀ word ∈ first :: second :: words, Compact word ∧ word ≠ [])
    (hwords : ∀ word ∈ first :: second :: words,
      isKeyword "AND" word = false ∧ isKeyword "OR" word = false) :
  ReadsAll (List.intercalate [' '] (first :: second :: words))
    [.comparison (String.ofList (List.intercalate [' '] (first :: second :: words)))]
  := by
  refine ⟨first :: second :: words, rfl, by simp, hsolid, ?_, ?_⟩
  · intro word hword other hother
    rw [List.mem_singleton.mp hother]
    apply (hwords word hword).2
  · intro depth _
    rw [List.splitOnP_eq_singleton fun word hword => (hwords word hword).1]
    simp [readUnit]

end CqlGateway.Cql

import CqlGateway.Proofs.Cql.Formula
import CqlGateway.Proofs.Cql.Spelling

/-!
# Precedence in rendered predicates

A predicate is a tree of conjunctions and disjunctions over comparisons. Its rendering puts a
logical operand in parentheses only where its operator differs from that of the whole, and spells
out two bounds as two comparisons without any parentheses. Read with the usual precedence, the
rendering is still a formula over the same comparisons and with the same truth values.
-/

namespace CqlGateway

open Text (upper upperChar)

variable {cs : List Char} {c : Char} {texts : List String}

namespace Cql

/-! ### Single words -/

/-- The operators that a predicate is divided at. -/
def logicalWords : List String :=
  ["AND", "OR"]

/-- A word of a comparison: it is not divided and is no logical operator. -/
structure IsPlainWord (word : List Char) : Prop where
  compact : Compact word
  ne_nil : word ≠ []
  not_logical : ∀ keyword ∈ logicalWords, isKeyword keyword word = false

/-- A word with a character that no logical operator has. -/
theorem IsPlainWord.of_mem {word : List Char} (hcompact : Compact word) (hc : c ∈ word)
    (hcapital : ∀ keyword ∈ logicalWords, upperChar c ∉ keyword.toList) :
  IsPlainWord word
  := by
  constructor
  · apply hcompact
  · apply List.ne_nil_of_mem hc
  · intro keyword hkeyword
    apply isKeyword_eq_false hc (hcapital keyword hkeyword)

theorem isWordChar_of_isNameChar (hc : isNameChar c = true) :
  isWordChar c = true
  := by
  have hne : ∀ d : Char, isNameChar d = false → c ≠ d := by
    rintro d hd rfl
    rw [hd] at hc
    cases hc
  simp [isWordChar, isBlank_of_isNameChar hc, hne '\x27' (by decide), hne '"' (by decide),
    hne '(' (by decide), hne ')' (by decide)]

theorem compact_of_isPlain (h : isPlain cs = true) :
  Compact cs
  := by
  apply compact_of_isWordChar
  rw [List.all_eq_true]
  intro c hc
  apply isWordChar_of_isNameChar
  apply List.all_eq_true.mp (nameChars_of_isPlain h) c hc

/-- A name is a plain word: it stands in quotes if it is reserved. -/
theorem isPlainWord_quoteBare (name : String) :
  IsPlainWord (quoteBare name).toList
  := by
  unfold quoteBare
  split
  next hbare =>
    simp only [isBare, Bool.and_eq_true, Bool.not_eq_true'] at hbare
    constructor
    · apply compact_of_isPlain hbare.1
    · intro hnil
      rw [hnil] at hbare
      cases hbare.1
    · intro keyword hkeyword
      have hreserved : ∀ keyword ∈ logicalWords, reservedWords.contains keyword = true := by decide
      rw [isKeyword, decide_eq_false_iff_not]
      intro hupper
      have hname : upper name = keyword := by
        rw [upper, hupper, String.ofList_toList]
      rw [isReserved, hname, hreserved keyword hkeyword] at hbare
      cases hbare.2
  next =>
    rw [String.toList_ofList]
    apply IsPlainWord.of_mem (compact_quoted (.inr rfl) name.toList) List.mem_cons_self
    decide

theorem isPlainWord_quoteText (s : String) :
  IsPlainWord (quoteText s).toList
  := by
  rw [quoteText, String.toList_ofList]
  apply IsPlainWord.of_mem (compact_quoted (.inl rfl) s.toList) List.mem_cons_self
  decide

/-- A text in parentheses, behind a name or alone, is a plain word. -/
theorem isPlainWord_group {name : List Char} (hname : Compact name) (hcs : Nested cs) :
  IsPlainWord (name ++ ('(' :: cs ++ [')']))
  := by
  apply IsPlainWord.of_mem (hname.append hcs.compact_group)
  · apply List.mem_append_right name List.mem_cons_self
  · decide

theorem compact_nil :
  Compact []
  := fun _ _ _ => rfl

theorem nested_commas (h : ∀ text ∈ texts, Nested text.toList) :
  Nested (String.intercalate ", " texts).toList
  := by
  rw [String.toList_intercalate]
  apply nested_intercalate
  · change Nested ([','] ++ [' '])
    apply Nested.append
    · apply (compact_of_isWordChar (by decide)).nested
    · apply nested_blank rfl
  · intro cs hcs
    obtain ⟨text, htext, rfl⟩ := List.mem_map.mp hcs
    apply h text htext

/-! ### Phrases -/

/-- A text of plain words with single blanks between them. -/
def IsPlainPhrase (cs : List Char) : Prop :=
  ∃ word words, cs = List.intercalate [' '] (word :: words) ∧ ∀ w ∈ word :: words, IsPlainWord w

theorem IsPlainWord.phrase {word : List Char} (h : IsPlainWord word) :
  IsPlainPhrase word
  := by
  use word, []
  constructor
  · rw [List.intercalate_singleton]
  · apply List.forall_mem_singleton.mpr h

theorem IsPlainPhrase.nested (h : IsPlainPhrase cs) :
  Nested cs
  := by
  obtain ⟨word, words, rfl, hwords⟩ := h
  apply nested_intercalate (nested_blank rfl)
  exact fun w hw => (hwords w hw).compact.nested

theorem IsPlainPhrase.append {ds : List Char} (hcs : IsPlainPhrase cs) (hds : IsPlainPhrase ds) :
  IsPlainPhrase (cs ++ ' ' :: ds)
  := by
  obtain ⟨word, words, rfl, hwords⟩ := hcs
  obtain ⟨other, others, rfl, hothers⟩ := hds
  use word, words ++ other :: others
  constructor
  · rw [← List.cons_append, intercalate_append (List.cons_ne_nil _ _) (List.cons_ne_nil _ _)]
  · rw [← List.cons_append, List.forall_mem_append]
    exact ⟨hwords, hothers⟩

/-- Two phrases side by side are read as a comparison. -/
theorem IsPlainPhrase.readsAll {ds : List Char} (hcs : IsPlainPhrase cs) (hds : IsPlainPhrase ds) :
  ReadsAll (cs ++ ' ' :: ds) [.comparison (String.ofList (cs ++ ' ' :: ds))]
  := by
  obtain ⟨word, words, rfl, hwords⟩ := hcs
  obtain ⟨other, others, rfl, hothers⟩ := hds
  have hall := List.forall_mem_append.mpr ⟨hwords, hothers⟩
  obtain ⟨first, second, rest, hrest⟩ : ∃ first second rest,
      word :: words ++ other :: others = first :: second :: rest := by
    cases words with
    | nil => exact ⟨_, _, _, rfl⟩
    | cons next words => exact ⟨_, _, _, rfl⟩
  rw [← intercalate_append (List.cons_ne_nil _ _) (List.cons_ne_nil _ _)]
  rw [hrest] at hall ⊢
  apply readsAll_comparison
  · exact fun w hw => ⟨(hall w hw).compact, (hall w hw).ne_nil⟩
  · exact fun w hw => ⟨(hall w hw).not_logical "AND" (by decide),
      (hall w hw).not_logical "OR" (by decide)⟩

end Cql

open Cql (Compact Formula IsPlainPhrase IsPlainWord Nested Operator ReadsAll ReadsAny
  compact_of_isWordChar logicalWords)

namespace Json

/-- The characters of a number are digits, signs, points and exponents. -/
theorem NumberState.isNumberMark_of_foldlM {s t : NumberState}
    (h : cs.foldlM NumberState.next? s = some t) :
  ∀ c ∈ cs, isNumberMark c = true ∨ c = '-'
  := by
  induction cs generalizing s with
  | nil =>
    intro c hc
    cases hc
  | cons c cs ih =>
    rw [List.foldlM_cons] at h
    obtain ⟨u, hu, ht⟩ := Option.bind_eq_some_iff.mp h
    rw [List.forall_mem_cons]
    refine ⟨?_, ih ht⟩
    rcases NumberState.next?_cases hu with ⟨hc, -⟩ | ⟨hc, -⟩
    · apply Or.inl hc
    · apply Or.inr hc

theorem upperChar_of_isDigit (h : c.isDigit = true) :
  upperChar c = c
  := by
  have hle : c.toNat ≤ 57 := by
    simp only [Char.isDigit, Bool.and_eq_true, decide_eq_true_eq] at h
    apply UInt32.le_iff_toNat_le.mp h.2
  rw [upperChar, if_pos (by omega)]
  apply dif_neg
  rintro ⟨hlower, -⟩
  have hlower := UInt32.le_iff_toNat_le.mp hlower
  change 97 ≤ c.toNat at hlower
  omega

/-- A character of a number opens and divides nothing. -/
theorem isWordChar_of_isNumberMark (h : isNumberMark c = true ∨ c = '-') :
  Cql.isWordChar c = true
  := by
  simp only [isNumberMark, Bool.or_eq_true, decide_eq_true_eq] at h
  rcases h with ((((hdigit | rfl) | rfl) | rfl) | rfl) | rfl
  · apply Cql.isWordChar_of_isNameChar
    simp [Cql.isNameChar, Char.isAlphanum, hdigit]
  all_goals decide

/-- A character of a number is in no logical operator. -/
theorem upperChar_of_isNumberMark (h : isNumberMark c = true ∨ c = '-') :
  ∀ keyword ∈ logicalWords, upperChar c ∉ keyword.toList
  := by
  simp only [isNumberMark, Bool.or_eq_true, decide_eq_true_eq] at h
  rcases h with ((((hdigit | rfl) | rfl) | rfl) | rfl) | rfl
  · have hletters : ∀ keyword ∈ logicalWords, keyword.toList.any Char.isDigit = false := by
      decide
    intro keyword hkeyword hmem
    rw [upperChar_of_isDigit hdigit] at hmem
    exact List.any_eq_false.mp (hletters keyword hkeyword) c hmem hdigit
  all_goals decide

theorem isPlainWord_of_isNumber (h : isNumber cs = true) :
  IsPlainWord cs
  := by
  unfold isNumber at h
  split at h
  next t hread =>
    have hchars := NumberState.isNumberMark_of_foldlM hread
    cases cs with
    | nil =>
      cases hread
      cases h
    | cons c cs =>
      apply IsPlainWord.of_mem _ List.mem_cons_self
        (upperChar_of_isNumberMark (hchars c List.mem_cons_self))
      apply compact_of_isWordChar
      rw [List.all_eq_true]
      intro d hd
      apply isWordChar_of_isNumberMark (hchars d hd)
  next => cases h

end Json

/-! ### Operands -/

namespace Expr

variable {l name op r text : String} {mapped : Operator} {t : Term}

/-- The operands of comparisons: columns, literals, parameters, lists and function calls, spelled
so that their renderings can be read back. -/
inductive IsOperand : Expr → Prop
  | simple {t : Term}
      (kind : t.kind ∈ [.column, .star, .text, .number, .bool, .null, .param])
      (spelled : t.isWellSpelled = true) : IsOperand (.of t)
  | list {t : Term} (kind : t.kind = .list) (items : ∀ e ∈ t.items, IsOperand e) : IsOperand (.of t)
  | call {t : Term} (kind : t.kind ∈ [.function, .aggregate]) (spelled : t.isWellSpelled = true)
      (args : ∀ e ∈ t.args, IsOperand e) : IsOperand (.of t)

theorem isPlainWord_columnCql {column : String} (h : (columnCql column).Yields text) :
  IsPlainWord text.toList
  := by
  unfold columnCql at h
  split at h
  · obtain rfl := (Draft.yields_pure _ _).mp h
    apply IsPlainWord.of_mem (compact_of_isWordChar (by decide)) List.mem_cons_self
    decide
  · split at h
    · cases Draft.yields_reject _ _ h
    · obtain rfl := (Draft.yields_pure _ _).mp h
      apply Cql.isPlainWord_quoteBare

theorem isPlainWord_boolCql (value : Node) :
  IsPlainWord (boolCql value).toList
  := by
  unfold boolCql
  split
  all_goals exact ⟨compact_of_isWordChar (by decide), by decide, by decide⟩

theorem isPlainWord_paramCql (h : name = "?" ∨ Cql.isPlain name.toList = true) :
  IsPlainWord (paramCql name).toList
  := by
  rcases paramCql_cases h with hmark | ⟨hplain, hname⟩
  · rw [hmark]
    exact ⟨compact_of_isWordChar (by decide), by decide, by decide⟩
  · rw [hname, String.toList_append]
    have hcolon : Compact ":".toList := compact_of_isWordChar (by decide)
    apply IsPlainWord.of_mem (hcolon.append (Cql.compact_of_isPlain hplain))
    · apply List.mem_append_left name.toList List.mem_cons_self
    · decide

theorem isPlainWord_enclosed (hname : Compact name.toList)
    (htexts : ∀ text ∈ texts, Nested text.toList) :
  IsPlainWord (name ++ enclosed "(" ")" texts).toList
  := by
  rw [enclosed, String.toList_append, String.toList_append, String.toList_append]
  apply Cql.isPlainWord_group hname (Cql.nested_commas htexts)

theorem isPlainWord_callCql {kind : TermKind} {distinct : Bool} {args : List Expr}
    {argsDraft : Draft (List String)} (hname : Cql.isPlain name.toList = true)
    (hargs : ∀ texts, argsDraft.Yields texts → ∀ s ∈ texts, Nested s.toList)
    (h : (callCql kind name distinct args argsDraft).Yields text) :
  IsPlainWord text.toList
  := by
  have hplain := Cql.compact_of_isPlain (Cql.Function.isPlain_ofName hname)
  rw [yields_callCql rfl] at h
  split at h
  next =>
    subst h
    apply isPlainWord_enclosed hplain (List.forall_mem_nil _)
  next =>
    split at h
    next =>
      subst h
      have hcount : Compact "COUNT".toList := compact_of_isWordChar (by decide)
      have hstar : Compact ['*'] := compact_of_isWordChar (by decide)
      apply Cql.isPlainWord_group hcount hstar.nested
    next =>
      obtain ⟨texts, htexts, rfl⟩ := h
      apply isPlainWord_enclosed hplain (hargs texts htexts)

theorem forall_of_cqlAll {P : String → Prop} {es : List Expr}
    (h : ∀ e ∈ es, ∀ text, e.cql.Yields text → P text) (htexts : (cqlAll es).Yields texts) :
  ∀ text ∈ texts, P text
  := by
  rw [cqlAll_eq_each] at htexts
  exact Draft.forall_of_each h htexts

theorem isPlainWord_list {t : Term} (kind : t.kind = .list)
    (hitems : ∀ e ∈ t.items, ∀ text, e.cql.Yields text → Nested text.toList)
    (h : (Expr.of t).cql.Yields text) :
  IsPlainWord text.toList
  := by
  rw [cql_of, kind] at h
  obtain ⟨texts, htexts, rfl⟩ := (Draft.yields_map _ _ _).mp h
  have htext : IsPlainWord ("" ++ enclosed "(" ")" texts).toList :=
    isPlainWord_enclosed Cql.compact_nil (forall_of_cqlAll hitems htexts)
  rwa [String.empty_append] at htext

theorem isPlainWord_call {t : Term} (kind : t.kind ∈ [.function, .aggregate])
    (spelled : t.isWellSpelled = true)
    (hargs : ∀ e ∈ t.args, ∀ text, e.cql.Yields text → Nested text.toList)
    (h : (Expr.of t).cql.Yields text) :
  IsPlainWord text.toList
  := by
  rw [cql_of] at h
  unfold Term.isWellSpelled at spelled
  rw [List.mem_pair] at kind
  rcases kind with hkind | hkind <;> rw [hkind] at h spelled
  all_goals
    apply isPlainWord_callCql spelled _ h
    exact fun texts htexts => forall_of_cqlAll hargs htexts

theorem IsOperand.isPlainWord {e : Expr} (he : e.IsOperand) (h : e.cql.Yields text) :
  IsPlainWord text.toList
  := by
  induction he generalizing text with
  | @simple t kind spelled =>
    rw [cql_of] at h
    unfold Term.isWellSpelled at spelled
    simp only [List.mem_cons, List.not_mem_nil, or_false] at kind
    rcases kind with hkind | hkind | hkind | hkind | hkind | hkind | hkind
      <;> rw [hkind] at h spelled
    · apply isPlainWord_columnCql h
    · obtain rfl := (Draft.yields_pure _ _).mp h
      apply IsPlainWord.of_mem (compact_of_isWordChar (by decide)) List.mem_cons_self
      decide
    · obtain rfl := (Draft.yields_pure _ _).mp h
      apply Cql.isPlainWord_quoteText
    · obtain rfl := (Draft.yields_pure _ _).mp h
      apply Json.isPlainWord_of_isNumber spelled
    · obtain rfl := (Draft.yields_pure _ _).mp h
      apply isPlainWord_boolCql
    · obtain rfl := (Draft.yields_pure _ _).mp h
      exact ⟨compact_of_isWordChar (by decide), by decide, by decide⟩
    · obtain rfl := (Draft.yields_pure _ _).mp h
      apply isPlainWord_paramCql
      simpa using spelled
  | list kind items ih =>
    apply isPlainWord_list kind _ h
    exact fun e he text htext => (ih e he htext).compact.nested
  | call kind spelled args ih =>
    apply isPlainWord_call kind spelled _ h
    exact fun e he text htext => (ih e he htext).compact.nested

/-! ### Predicates -/

/-- A predicate: conjunctions and disjunctions of comparisons, where a comparison has an operator
of CQL or two bounds. -/
inductive IsPredicate : Expr → Prop
  | logical {t : Term} (kind : t.kind = .binary) (operator : upper t.operator ∈ logicalWords)
      (left : IsPredicate t.left) (right : IsPredicate t.right) : IsPredicate (.of t)
  | comparison {t : Term} {mapped : Operator} (kind : t.kind = .binary)
      (operator : Operator.ofText t.operator = .ok mapped)
      (plain : mapped.cql ∉ logicalWords)
      (left : t.left.IsOperand) (right : t.right.IsOperand) : IsPredicate (.of t)
  | between {t : Term} {lo hi : Expr} (kind : t.kind = .binary)
      (operator : Operator.normalize t.operator = "BETWEEN")
      (bounds : t.right.kind? = some .list ∧ t.right.items = [lo, hi])
      (left : t.left.IsOperand) (low : lo.IsOperand) (high : hi.IsOperand) : IsPredicate (.of t)

/-- A condition over some operands: conjunctions and disjunctions of comparisons, where a comparison
has an operator of CQL or two bounds. -/
inductive IsConditionOf (operand : Expr → Prop) : Expr → Prop
  | logical {t : Term} (kind : t.kind = .binary) (operator : upper t.operator ∈ logicalWords)
      (left : IsConditionOf operand t.left) (right : IsConditionOf operand t.right) :
      IsConditionOf operand (.of t)
  | comparison {t : Term} {mapped : Operator} (kind : t.kind = .binary)
      (operator : Operator.ofText t.operator = .ok mapped)
      (plain : mapped.cql ∉ logicalWords)
      (left : operand t.left) (right : operand t.right) : IsConditionOf operand (.of t)
  | between {t : Term} {lo hi : Expr} (kind : t.kind = .binary)
      (operator : Operator.normalize t.operator = "BETWEEN")
      (bounds : t.right.kind? = some .list ∧ t.right.items = [lo, hi])
      (left : operand t.left) (low : operand lo) (high : operand hi) : IsConditionOf operand (.of t)

theorem IsPredicate.isConditionOf {e : Expr} (he : e.IsPredicate) :
  e.IsConditionOf IsOperand
  := by
  induction he with
  | logical kind operator left right hleft hright => exact .logical kind operator hleft hright
  | comparison kind operator plain left right => exact .comparison kind operator plain left right
  | between kind operator bounds left low high => exact .between kind operator bounds left low high

/-- The formula that a predicate stands for. Two bounds stand for two comparisons. -/
def formula : Expr → Formula Expr
  | .missing => .comparison .missing
  | .of ⟨kind, operator, left, right, operand, table, column, value, name, args, items, distinct,
      query⟩ =>
    if upper operator = "AND" then .all [left.formula, right.formula]
    else if upper operator = "OR" then .any [left.formula, right.formula]
    else
      match Operator.normalize operator, right.items with
      | "BETWEEN", [lo, hi] =>
        .all [.comparison (binary ">=" left lo), .comparison (binary "<=" left hi)]
      | _, _ => .comparison (.of ⟨kind, operator, left, right, operand, table, column, value, name,
          args, items, distinct, query⟩)

theorem formula_of (t : Term) :
  (Expr.of t).formula
    = if upper t.operator = "AND" then .all [t.left.formula, t.right.formula]
      else if upper t.operator = "OR" then .any [t.left.formula, t.right.formula]
      else
        match Operator.normalize t.operator, t.right.items with
        | "BETWEEN", [lo, hi] =>
          .all [.comparison (binary ">=" t.left lo), .comparison (binary "<=" t.left hi)]
        | _, _ => .comparison (.of t)
  := by
  cases t
  rw [formula.eq_def]

/-- A formula over texts says the same as one over expressions: its comparisons are the renderings
of the other's from left to right, and both have the same truth values. -/
structure Agrees (f : Formula Expr) (g : Formula String) : Prop where
  comparisons : List.Forall₂ (fun e text => e.cql.Yields text) f.comparisons g.comparisons
  truth : ∀ v n, f.truth v n = g.truth v n

namespace Agrees

open Cql.Formula

variable {e f : Formula Expr} {g : Formula String} {fs gs : List (Formula String)}

theorem comparison {e : Expr} (h : e.cql.Yields text) :
  Agrees (.comparison e) (.comparison text)
  := ⟨.cons h .nil, fun _ _ => rfl⟩

theorem all_singleton (h : Agrees f g) :
  Agrees f (.all [g])
  := by
  constructor
  · simpa [Formula.comparisons, comparisonsOf] using h.comparisons
  · intro v n
    simp [Formula.truth, truthOfAll, h.truth]

theorem any_singleton (h : Agrees f g) :
  Agrees f (.any [g])
  := by
  constructor
  · simpa [Formula.comparisons, comparisonsOf] using h.comparisons
  · intro v n
    simp [Formula.truth, truthOfAny, h.truth]

theorem comparisons_append
    (hf : List.Forall₂ (fun e text => e.cql.Yields text) e.comparisons (comparisonsOf fs))
    (hg : List.Forall₂ (fun e text => e.cql.Yields text) f.comparisons (comparisonsOf gs)) :
  List.Forall₂ (fun e text => e.cql.Yields text) (comparisonsOf [e, f]) (comparisonsOf (fs ++ gs))
  := by
  rw [comparisonsOf_append]
  simpa [comparisonsOf] using List.rel_append hf hg

theorem all_append (he : Agrees e (.all fs)) (hf : Agrees f (.all gs)) :
  Agrees (.all [e, f]) (.all (fs ++ gs))
  := by
  constructor
  · apply comparisons_append he.comparisons hf.comparisons
  · intro v n
    have hlength : e.comparisons.length = (comparisonsOf fs).length := he.comparisons.length_eq
    have htruth : e.truth v n = truthOfAll v n fs := he.truth v n
    have htruth' : f.truth v (n + (comparisonsOf fs).length)
        = truthOfAll v (n + (comparisonsOf fs).length) gs := hf.truth v _
    simp [Formula.truth, truthOfAll, truthOfAll_append, hlength, htruth, htruth']

theorem any_append (he : Agrees e (.any fs)) (hf : Agrees f (.any gs)) :
  Agrees (.any [e, f]) (.any (fs ++ gs))
  := by
  constructor
  · apply comparisons_append he.comparisons hf.comparisons
  · intro v n
    have hlength : e.comparisons.length = (comparisonsOf fs).length := he.comparisons.length_eq
    have htruth : e.truth v n = truthOfAny v n fs := he.truth v n
    have htruth' : f.truth v (n + (comparisonsOf fs).length)
        = truthOfAny v (n + (comparisonsOf fs).length) gs := hf.truth v _
    simp [Formula.truth, truthOfAny, truthOfAny_append, hlength, htruth, htruth']

end Agrees

/-! ### Logical operators -/

theorem normalize_of_logical {operator keyword : String} (hkeyword : keyword ∈ logicalWords)
    (h : upper operator = keyword) :
  Operator.normalize operator = keyword
  := by
  have hwords : ∀ keyword ∈ logicalWords,
      String.intercalate " " (Text.words keyword) = keyword := by decide
  rw [Operator.normalize, h, hwords keyword hkeyword]

/-- The text of an expression is read as the formula that the expression stands for: by the parts
of a disjunction, or by those of a conjunction. -/
def IsReadAs (e : Expr) (text : String) : Prop :=
  if e.isLogical = true ∧ e.operatorKey = "OR" then
    ∃ fs, ReadsAny text.toList fs ∧ Agrees e.formula (.any fs)
  else ∃ fs, ReadsAll text.toList fs ∧ Agrees e.formula (.all fs)

theorem IsReadAs.any {e : Expr} (h : e.IsReadAs text) :
  ∃ fs, ReadsAny text.toList fs ∧ Agrees e.formula (.any fs)
  := by
  unfold IsReadAs at h
  split at h
  · apply h
  · obtain ⟨fs, hread, hagrees⟩ := h
    exact ⟨[.all fs], hread.any, hagrees.any_singleton⟩

theorem IsReadAs.group {e : Expr} (h : e.IsReadAs text) :
  ∃ fs, ReadsAll ("(" ++ text ++ ")").toList fs ∧ Agrees e.formula (.all fs)
  := by
  obtain ⟨fs, hread, hagrees⟩ := h.any
  refine ⟨[.any fs], ?_, hagrees.all_singleton⟩
  rw [String.toList_append, String.toList_append]
  apply hread.group

theorem IsReadAs.operand_and {e : Expr} (h : e.IsReadAs text) :
  ∃ fs, ReadsAll (operandCql e "AND" text).toList fs ∧ Agrees e.formula (.all fs)
  := by
  unfold operandCql
  split
  · apply h.group
  next hand =>
    unfold IsReadAs at h
    rw [if_neg] at h
    · apply h
    · rintro ⟨hlogical, hor⟩
      apply hand
      simp [hlogical, hor]

theorem IsReadAs.operand_or {e : Expr} (h : e.IsReadAs text) :
  ∃ fs, ReadsAny (operandCql e "OR" text).toList fs ∧ Agrees e.formula (.any fs)
  := by
  unfold operandCql
  split
  · obtain ⟨fs, hread, hagrees⟩ := h.group
    exact ⟨[.all fs], hread.any, hagrees.any_singleton⟩
  · apply h.any

/-! ### Comparisons -/

/-- An expression that can stand beside the operator of a comparison: it is rendered as plain words
without parentheses around them. -/
structure IsPhrased (e : Expr) : Prop where
  present : e.isPresent = true
  not_logical : e.isLogical = false
  phrase : ∀ text, e.cql.Yields text → IsPlainPhrase text.toList

theorem IsPhrased.operandCql {e : Expr} (he : e.IsPhrased) (parent text : String) :
  operandCql e parent text = text
  := by
  simp [Expr.operandCql, he.not_logical]

theorem IsOperand.isPhrased {e : Expr} (he : e.IsOperand) :
  e.IsPhrased
  := by
  constructor
  · cases he <;> rfl
  · cases he with
    | @simple t kind spelled =>
      have hkind : t.kind ≠ .binary := by
        intro hkind
        rw [hkind] at kind
        revert kind
        decide
      simp [isLogical, hkind]
    | list kind items => simp [isLogical, kind]
    | @call t kind spelled args =>
      rw [List.mem_pair] at kind
      rcases kind with hkind | hkind <;> simp [isLogical, hkind]
  · intro text h
    apply (he.isPlainWord h).phrase

theorem isPlainPhrase_operator (h : Operator.ofText op = .ok mapped)
    (hplain : mapped.cql ∉ logicalWords) :
  IsPlainPhrase mapped.cql.toList
  := by
  have htable : ∀ p ∈ Operator.table, p.2.cql ∉ logicalWords →
      p.2.cql.toList = List.intercalate [' '] (p.2.cql.toList.splitOnP (· = ' '))
        ∧ ∀ w ∈ p.2.cql.toList.splitOnP (· = ' '), w.all Cql.isWordChar = true ∧ w ≠ []
          ∧ ∀ keyword ∈ logicalWords, Cql.isKeyword keyword w = false := by
    decide
  obtain ⟨hjoin, hwords⟩ := htable _ (Operator.mem_table h) hplain
  obtain ⟨word, words, hsplit⟩ := List.exists_cons_of_ne_nil
    (List.splitOnP_ne_nil (· = ' ') mapped.cql.toList)
  rw [hsplit] at hjoin hwords
  refine ⟨word, words, hjoin, ?_⟩
  intro w hw
  obtain ⟨hchars, hne, hkeyword⟩ := hwords w hw
  exact ⟨compact_of_isWordChar hchars, hne, hkeyword⟩

theorem readsAll_operator (h : Operator.ofText op = .ok mapped)
    (hplain : mapped.cql ∉ logicalWords) (hl : IsPlainPhrase l.toList)
    (hr : IsPlainPhrase r.toList) (htext : text = l ++ " " ++ mapped.cql ++ " " ++ r) :
  ReadsAll text.toList [.comparison text]
  := by
  have hchars : text.toList = l.toList ++ ' ' :: (mapped.cql.toList ++ ' ' :: r.toList) := by
    rw [htext]
    simp
  have hread := hl.readsAll ((isPlainPhrase_operator h hplain).append hr)
  rwa [← hchars, String.ofList_toList] at hread

/-- An operator of CQL has no two bounds. -/
theorem normalize_ne_between (h : Operator.ofText op = .ok mapped) :
  Operator.normalize op ≠ "BETWEEN"
  := by
  have htable : ∀ p ∈ Operator.table, p.1 ≠ "BETWEEN" := by decide
  have hkey := htable _ (Operator.mem_table h)
  dsimp only at hkey
  exact hkey

/-- An operator of a comparison is no logical operator. -/
theorem upper_not_mem_of_ofText (h : Operator.ofText op = .ok mapped)
    (hplain : mapped.cql ∉ logicalWords) :
  upper op ∉ logicalWords
  := by
  have htable : ∀ p ∈ Operator.table, p.1 ∈ logicalWords →
      p.2.cql ∈ logicalWords := by decide
  have hkey := htable _ (Operator.mem_table h)
  dsimp only at hkey
  intro hupper
  rw [normalize_of_logical hupper rfl] at hkey
  exact hplain (hkey hupper)

theorem upper_not_mem_of_between (h : Operator.normalize op = "BETWEEN") :
  upper op ∉ logicalWords
  := by
  intro hupper
  have hkey := normalize_of_logical hupper rfl
  rw [← hkey, h] at hupper
  revert hupper
  decide

/-- An operator that is found in the table is found under its own key. -/
theorem ofText_normalize (h : Operator.ofText op = .ok mapped) :
  Operator.ofText (Operator.normalize op) = .ok mapped
  := by
  have htable : ∀ p ∈ Operator.table, Operator.normalize p.1 = p.1 := by decide
  have hkey := htable _ (Operator.mem_table h)
  unfold Operator.ofText at h ⊢
  rw [hkey]
  split at h
  next hlookup =>
    rw [hlookup]
    apply h
  next =>
    split at h <;> cases h

theorem yields_comparison (hkind : t.kind = .binary)
    (hoperator : Operator.ofText t.operator = .ok mapped) (hleft : t.left.IsPhrased)
    (hright : t.right.IsPhrased) :
  (Expr.of t).cql.Yields text
    ↔ ∃ l r, t.left.cql.Yields l ∧ t.right.cql.Yields r
      ∧ text = l ++ " " ++ mapped.cql ++ " "
        ++ (if (Operator.normalize t.operator = "IN" && t.right.kind? ≠ some .list) = true then
            "(" ++ r ++ ")" else r)
  := by
  have hbetween := normalize_ne_between hoperator
  rw [cql_of, hkind]
  simp only [yields_binaryCql rfl, hbetween, if_false, hleft.present, hright.present, true_and,
    ofText_normalize hoperator, hleft.operandCql, hright.operandCql]
  constructor
  · rintro ⟨_, l, r, ⟨rfl⟩, hl, hr, htext⟩
    exact ⟨l, r, hl, hr, htext⟩
  · rintro ⟨l, r, hl, hr, htext⟩
    exact ⟨mapped, l, r, rfl, hl, hr, htext⟩

/-- An expression without a logical operator is read as a conjunction. -/
theorem isReadAs_of_readsAll {fs : List (Formula String)}
    (hupper : upper t.operator ∉ logicalWords) (hread : ReadsAll text.toList fs)
    (hagrees : Agrees (Expr.of t).formula (.all fs)) :
  (Expr.of t).IsReadAs text
  := by
  unfold IsReadAs
  rw [if_neg]
  · exact ⟨fs, hread, hagrees⟩
  · rintro ⟨hlogical, -⟩
    apply hupper
    simp only [isLogical, Bool.and_eq_true, Bool.or_eq_true, decide_eq_true_eq] at hlogical
    simpa [logicalWords] using hlogical.2

theorem isReadAs_comparison (hkind : t.kind = .binary)
    (hoperator : Operator.ofText t.operator = .ok mapped)
    (hplain : mapped.cql ∉ logicalWords) (hleft : t.left.IsPhrased) (hright : t.right.IsPhrased)
    (h : (Expr.of t).cql.Yields text) :
  (Expr.of t).IsReadAs text
  := by
  have hupper := upper_not_mem_of_ofText hoperator hplain
  have hbetween := normalize_ne_between hoperator
  have hformula : (Expr.of t).formula = .comparison (.of t) := by
    simp only [logicalWords, List.mem_pair, not_or] at hupper
    rw [formula_of, if_neg hupper.1, if_neg hupper.2]
    split
    next hop _ => cases hbetween hop
    next => rfl
  obtain ⟨l, r, hl, hr, htext⟩ := (yields_comparison hkind hoperator hleft hright).mp h
  have hread : ReadsAll text.toList [.comparison text] := by
    refine readsAll_operator hoperator hplain (hleft.phrase l hl) ?_ htext
    have hr := hright.phrase r hr
    split
    · rw [String.toList_append, String.toList_append]
      apply (Cql.isPlainWord_group Cql.compact_nil hr.nested).phrase
    · apply hr
  apply isReadAs_of_readsAll hupper hread
  rw [hformula]
  apply (Agrees.comparison h).all_singleton

theorem readsAll_bound {operator : String} {subject bound : Expr}
    (hoperator : Operator.ofText operator = .ok mapped) (hplain : mapped.cql ∉ logicalWords)
    (hin : Operator.normalize operator ≠ "IN") (hsubject : subject.IsPhrased)
    (hbound : bound.IsPhrased) (hl : subject.cql.Yields l) (hr : bound.cql.Yields r)
    (htext : text = l ++ " " ++ mapped.cql ++ " " ++ r) :
  ReadsAll text.toList [.comparison text]
    ∧ Agrees (.comparison (binary operator subject bound)) (.all [.comparison text])
  := by
  constructor
  · apply readsAll_operator hoperator hplain (hsubject.phrase l hl) (hbound.phrase r hr) htext
  · apply Agrees.all_singleton
    apply Agrees.comparison
    let t : Term := { Term.blank .binary with operator := operator, left := subject, right := bound }
    have hkind : t.kind = .binary := rfl
    refine (yields_comparison hkind hoperator hsubject hbound).mpr ⟨l, r, hl, hr, ?_⟩
    rw [if_neg, htext]
    simp [t, hin]

theorem yields_between {lo hi : Expr} (hkind : t.kind = .binary)
    (hoperator : Operator.normalize t.operator = "BETWEEN") (hitems : t.right.items = [lo, hi])
    (h : (Expr.of t).cql.Yields text) :
  ∃ subject low high, t.left.cql.Yields subject ∧ lo.cql.Yields low ∧ hi.cql.Yields high
    ∧ text = subject ++ " >= " ++ low ++ " AND " ++ subject ++ " <= " ++ high
  := by
  rw [cql_of, hkind] at h
  obtain ⟨-, -, h⟩ := (yields_binaryCql hoperator).mp h
  rw [if_pos rfl] at h
  obtain ⟨boundsDraft, subject, low, high, hdraft, hsubject, hyields, htext⟩ := h
  obtain ⟨lo', hi', -, hitems', rfl⟩ := boundsCql_eq_some hdraft
  obtain ⟨rfl, rfl⟩ : lo = lo' ∧ hi = hi' := by
    simpa using hitems.symm.trans hitems'
  have hbounds : lo.cql.Yields low ∧ hi.cql.Yields high := by
    simpa [Draft.yields_bind, Draft.yields_pure] using hyields
  exact ⟨subject, low, high, hsubject, hbounds.1, hbounds.2, htext⟩

theorem isReadAs_between {lo hi : Expr} (hkind : t.kind = .binary)
    (hoperator : Operator.normalize t.operator = "BETWEEN") (hitems : t.right.items = [lo, hi])
    (hleft : t.left.IsPhrased) (hlo : lo.IsPhrased) (hhi : hi.IsPhrased)
    (h : (Expr.of t).cql.Yields text) :
  (Expr.of t).IsReadAs text
  := by
  have hupper := upper_not_mem_of_between hoperator
  have hformula : (Expr.of t).formula
      = .all [.comparison (binary ">=" t.left lo), .comparison (binary "<=" t.left hi)] := by
    simp only [logicalWords, List.mem_pair, not_or] at hupper
    rw [formula_of, if_neg hupper.1, if_neg hupper.2, hoperator, hitems]
    rfl
  obtain ⟨subject, low, high, hsubject, hlow, hhigh, htext⟩ := yields_between hkind hoperator hitems h
  have hge : Operator.ofText ">=" = .ok ⟨">=", none⟩ := rfl
  have hle : Operator.ofText "<=" = .ok ⟨"<=", none⟩ := rfl
  obtain ⟨hread, hagrees⟩ :=
    readsAll_bound hge (by decide) (by decide) hleft hlo hsubject hlow rfl
  obtain ⟨hread', hagrees'⟩ :=
    readsAll_bound hle (by decide) (by decide) hleft hhi hsubject hhigh rfl
  have hchars : text.toList = (subject ++ " " ++ ">=" ++ " " ++ low).toList ++ " AND ".toList
      ++ (subject ++ " " ++ "<=" ++ " " ++ high).toList := by
    rw [htext]
    simp
  apply isReadAs_of_readsAll hupper
  · rw [hchars]
    apply hread.append hread'
  · rw [hformula]
    apply hagrees.all_append hagrees'

/-! ### Whole predicates -/

theorem yields_logical {keyword : String} (hkind : t.kind = .binary)
    (hkeyword : keyword ∈ logicalWords) (hoperator : upper t.operator = keyword)
    (h : (Expr.of t).cql.Yields text) :
  ∃ l r, t.left.cql.Yields l ∧ t.right.cql.Yields r
    ∧ text = operandCql t.left keyword l ++ " " ++ keyword ++ " " ++ operandCql t.right keyword r
  := by
  have hwords : ∀ keyword ∈ logicalWords, keyword ≠ "BETWEEN" ∧ keyword ≠ "IN"
      ∧ Operator.ofText keyword = .ok ⟨keyword, none⟩ := by
    simp only [logicalWords, List.forall_mem_cons]
    exact ⟨⟨by decide, by decide, rfl⟩, ⟨by decide, by decide, rfl⟩, List.forall_mem_nil _⟩
  obtain ⟨hbetween, hin, hmapped⟩ := hwords keyword hkeyword
  rw [cql_of, hkind] at h
  obtain ⟨-, -, h⟩ := (yields_binaryCql (normalize_of_logical hkeyword hoperator)).mp h
  rw [if_neg hbetween] at h
  obtain ⟨mapped, l, r, hfound, hl, hr, htext⟩ := h
  obtain rfl : ⟨keyword, none⟩ = mapped := Except.ok.inj (hmapped.symm.trans hfound)
  refine ⟨l, r, hl, hr, ?_⟩
  rw [htext, if_neg]
  simp [hin]

theorem isReadAs_and
    (hoperator : upper t.operator = "AND")
    (hl : t.left.IsReadAs l) (hr : t.right.IsReadAs r)
    (htext : text = operandCql t.left "AND" l ++ " " ++ "AND" ++ " " ++ operandCql t.right "AND" r) :
  (Expr.of t).IsReadAs text
  := by
  obtain ⟨fs, hread, hagrees⟩ := hl.operand_and
  obtain ⟨gs, hread', hagrees'⟩ := hr.operand_and
  have hkey : (Expr.of t).operatorKey = "AND" := normalize_of_logical (by decide) hoperator
  have hchars : text.toList = (operandCql t.left "AND" l).toList ++ " AND ".toList
      ++ (operandCql t.right "AND" r).toList := by
    rw [htext]
    simp
  have hor : ¬((Expr.of t).isLogical = true ∧ (Expr.of t).operatorKey = "OR") := by
    simp [hkey]
  unfold IsReadAs
  rw [if_neg hor, hchars, formula_of, if_pos hoperator]
  exact ⟨fs ++ gs, hread.append hread', hagrees.all_append hagrees'⟩

theorem isReadAs_or (hkind : t.kind = .binary) (hoperator : upper t.operator = "OR")
    (hl : t.left.IsReadAs l) (hr : t.right.IsReadAs r)
    (htext : text = operandCql t.left "OR" l ++ " " ++ "OR" ++ " " ++ operandCql t.right "OR" r) :
  (Expr.of t).IsReadAs text
  := by
  obtain ⟨fs, hread, hagrees⟩ := hl.operand_or
  obtain ⟨gs, hread', hagrees'⟩ := hr.operand_or
  have hkey : (Expr.of t).operatorKey = "OR" := normalize_of_logical (by decide) hoperator
  have hlogical : (Expr.of t).isLogical = true := by simp [isLogical, hkind, hoperator]
  have hand : upper t.operator ≠ "AND" := by
    rw [hoperator]
    decide
  have hchars : text.toList = (operandCql t.left "OR" l).toList ++ " OR ".toList
      ++ (operandCql t.right "OR" r).toList := by
    rw [htext]
    simp
  unfold IsReadAs
  rw [if_pos ⟨hlogical, hkey⟩, hchars, formula_of, if_neg hand, if_pos hoperator]
  exact ⟨fs ++ gs, hread.append hread', hagrees.any_append hagrees'⟩

/-- Every condition is read as the formula that it stands for. -/
theorem IsConditionOf.isReadAs {operand : Expr → Prop} (hoperand : ∀ e, operand e → e.IsPhrased)
    {e : Expr} (he : e.IsConditionOf operand) (h : e.cql.Yields text) :
  e.IsReadAs text
  := by
  induction he generalizing text with
  | @logical t kind operator left right hleft hright =>
    obtain ⟨l, r, hl, hr, htext⟩ := yields_logical kind operator rfl h
    rw [logicalWords, List.mem_pair] at operator
    rcases operator with hand | hor
    · rw [hand] at htext
      apply isReadAs_and hand (hleft hl) (hright hr) htext
    · rw [hor] at htext
      apply isReadAs_or kind hor (hleft hl) (hright hr) htext
  | comparison kind operator plain left right =>
    apply isReadAs_comparison kind operator plain (hoperand _ left) (hoperand _ right) h
  | between kind operator bounds left low high =>
    apply isReadAs_between kind operator bounds.2 (hoperand _ left) (hoperand _ low)
      (hoperand _ high) h

theorem IsPredicate.isReadAs {e : Expr} (he : e.IsPredicate) (h : e.cql.Yields text) :
  e.IsReadAs text
  := he.isConditionOf.isReadAs (fun _ => IsOperand.isPhrased) h

/-- The rendering of a predicate is read, with the usual precedence, as a formula over the
renderings of its comparisons that has the same truth values as the predicate. -/
theorem readPredicate_cql {e : Expr} {text : String} (he : e.IsPredicate) (h : e.cql.Yields text) :
  ∃ f, Cql.readPredicate text = some f
    ∧ List.Forall₂ (fun c t => c.cql.Yields t) e.formula.comparisons f.comparisons
    ∧ ∀ v, f.truth v 0 = e.formula.truth v 0
  := by
  obtain ⟨fs, hread, hagrees⟩ := (he.isReadAs h).any
  refine ⟨.any fs, ?_, hagrees.comparisons, fun v => (hagrees.truth v 0).symm⟩
  apply hread.readWithin
  rw [String.length_toList]
  apply Nat.lt_succ_self

/-- A disjunction below a conjunction, with two bounds, a reserved name and a text that spells
operators. -/
def agePredicate : Expr :=
  .binary "and"
    (.binary "Or"
      (.binary "between" (.column "age") (.list [.number "18", .number "-6.5e1"]))
      (.eq (.column "or") (.text "a) OR ('b")))
    (.binary "in" (.column "n") (.function "upper" [.column "x"]))

theorem isPredicate_agePredicate :
  agePredicate.IsPredicate
  := by
  have hsimple {t : Term} (h : t.kind ∈ [.column, .star, .text, .number, .bool, .null, .param]
      ∧ t.isWellSpelled = true) : (Expr.of t).IsOperand := .simple h.1 h.2
  have hcompare {operator : String} {mapped : Operator} {left right : Expr}
      (hoperator : Operator.ofText operator = .ok mapped)
      (hplain : mapped.cql ∉ logicalWords) (hleft : left.IsOperand) (hright : right.IsOperand) :
      (Expr.binary operator left right).IsPredicate := .comparison rfl hoperator hplain hleft hright
  have heq : Operator.ofText "=" = .ok ⟨"=", none⟩ := rfl
  have hin : Operator.ofText "in" = .ok ⟨"IN", none⟩ := rfl
  have hcall : (Expr.function "upper" [.column "x"]).IsOperand := by
    apply IsOperand.call (by decide) (by decide)
    exact List.forall_mem_singleton.mpr (hsimple (by decide))
  apply IsPredicate.logical rfl (by decide)
  · apply IsPredicate.logical rfl (by decide)
    · apply IsPredicate.between rfl (by decide) ⟨rfl, rfl⟩
      all_goals exact hsimple (by decide)
    · apply hcompare heq (by decide) (hsimple (by decide)) (hsimple (by decide))
  · apply hcompare hin (by decide) (hsimple (by decide)) hcall

theorem readPredicate_agePredicate :
  ∃ text, agePredicate.cql.Yields text
    ∧ ∃ f, Cql.readPredicate text = some f
      ∧ List.Forall₂ (fun c t => c.cql.Yields t) agePredicate.formula.comparisons f.comparisons
      ∧ ∀ v, f.truth v 0 = agePredicate.formula.truth v 0
  := by
  obtain ⟨text, htext⟩ : ∃ text, agePredicate.cql.Yields text := ⟨_, _, rfl⟩
  exact ⟨text, htext, readPredicate_cql isPredicate_agePredicate htext⟩

end Expr

end CqlGateway

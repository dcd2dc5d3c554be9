import CqlGateway.Proofs.Cql.Parts
import CqlGateway.Proofs.Cql.Precedence

/-!
# The key guard of a view

The condition of a view that gives no key is extended by a comparison that says that the assumed
key is there. The comparison is joined to the rendered condition by `AND` without any parentheses.
Read with the usual precedence, it constrains the whole of a comparison or a conjunction, and only
the last part of a disjunction.
-/

namespace CqlGateway

variable {text : String}

namespace Cql

/-- A sign before a phrase belongs to its first word. -/
theorem IsPlainPhrase.sign {c : Char} {cs : List Char} (hc : c ∈ ['-', '+'])
    (h : IsPlainPhrase cs) :
  IsPlainPhrase (c :: cs)
  := by
  obtain ⟨word, words, rfl, hwords⟩ := h
  rw [List.forall_mem_cons] at hwords
  have hchar : [c].all isWordChar = true := by
    rw [List.mem_pair] at hc
    rcases hc with rfl | rfl <;> decide
  have hcapital : ∀ keyword ∈ logicalWords, Text.upperChar c ∉ keyword.toList := by
    rw [List.mem_pair] at hc
    rcases hc with rfl | rfl <;> decide
  have hword : IsPlainWord (c :: word) :=
    .of_mem ((compact_of_isWordChar hchar).append hwords.1.compact) List.mem_cons_self hcapital
  use c :: word, words
  constructor
  · cases words <;> simp [List.intercalate, List.intersperse]
  · exact List.forall_mem_cons.mpr ⟨hword, hwords.2⟩

namespace Formula

variable {α : Type} {f g : Formula α}

/-- A formula that is true where all of its comparisons are. -/
def IsPositive (f : Formula α) : Prop :=
  ∀ v n, (∀ k < n + f.comparisons.length, v k = true) → f.truth v n = true

theorem isPositive_comparison (a : α) :
  (Formula.comparison a).IsPositive
  := fun _ n h => h n (Nat.lt_succ_self n)

theorem IsPositive.all (hf : f.IsPositive) (hg : g.IsPositive) :
  (Formula.all [f, g]).IsPositive
  := by
  intro v n h
  rw [comparisons_all_pair, List.length_append, ← Nat.add_assoc] at h
  rw [truth_all_pair, hg v _ h, hf v n fun k hk => h k (Nat.lt_add_right _ hk), Bool.and_self]

theorem IsPositive.any (hf : f.IsPositive) :
  (Formula.any [f, g]).IsPositive
  := by
  intro v n h
  rw [comparisons_any_pair, List.length_append, ← Nat.add_assoc] at h
  rw [truth_any_pair, hf v n fun k hk => h k (Nat.lt_add_right _ hk), Bool.true_or]

end Formula

end Cql

namespace Expr

open Cql.Formula (comparisons_all_pair comparisons_any_pair truth_all_pair truth_any_pair
  isPositive_comparison)
variable {e : Expr} {t : Term}

/-! ### Values -/

/-- The values that comparisons are made of: columns, literals and parameters, and lists, calls,
operations and signs over values. -/
inductive IsScalar : Expr → Prop
  | simple {t : Term}
      (kind : t.kind ∈ [.column, .star, .text, .number, .bool, .null, .param])
      (spelled : t.isWellSpelled = true) : IsScalar (.of t)
  | list {t : Term} (kind : t.kind = .list) (items : ∀ e ∈ t.items, IsScalar e) : IsScalar (.of t)
  | call {t : Term} (kind : t.kind ∈ [.function, .aggregate]) (spelled : t.isWellSpelled = true)
      (args : ∀ e ∈ t.args, IsScalar e) : IsScalar (.of t)
  | operation {t : Term} {mapped : Cql.Operator} (kind : t.kind = .binary)
      (operator : Cql.Operator.ofText t.operator = .ok mapped)
      (plain : mapped.cql ∉ Cql.logicalWords)
      (left : IsScalar t.left) (right : IsScalar t.right) : IsScalar (.of t)
  | sign {t : Term} (kind : t.kind = .unary) (operand : IsScalar t.operand) : IsScalar (.of t)

theorem isLogical_eq_false (h : t.kind ≠ .binary) :
  (Expr.of t).isLogical = false
  := by
  simp [isLogical, h]

theorem isPlainPhrase_signCql {sign operand : String} (hsign : sign ∈ ["-", "+"])
    (h : Cql.IsPlainPhrase operand.toList) :
  Cql.IsPlainPhrase (signCql sign operand).toList
  := by
  obtain ⟨c, hc, hchars⟩ : ∃ c ∈ ['-', '+'], sign.toList = [c] := by
    rw [List.mem_pair] at hsign
    rcases hsign with rfl | rfl
    · exact ⟨'-', by decide, rfl⟩
    · exact ⟨'+', by decide, rfl⟩
  unfold signCql
  split
  · simp only [String.toList_append, hchars]
    apply Cql.IsPlainPhrase.sign hc
    apply (Cql.isPlainWord_group Cql.compact_nil h.nested).phrase
  · simp only [String.toList_append, hchars]
    apply Cql.IsPlainPhrase.sign hc h

theorem IsScalar.isPhrased (he : e.IsScalar) :
  e.IsPhrased
  := by
  induction he with
  | simple kind spelled => apply (IsOperand.simple kind spelled).isPhrased
  | list kind items ih =>
    refine ⟨rfl, isLogical_eq_false (by simp [kind]), ?_⟩
    intro text h
    apply (isPlainWord_list kind _ h).phrase
    exact fun e he text htext => ((ih e he).phrase text htext).nested
  | call kind spelled args ih =>
    refine ⟨rfl, isLogical_eq_false ?_, ?_⟩
    · intro hkind
      simp [hkind] at kind
    · intro text h
      apply (isPlainWord_call kind spelled _ h).phrase
      exact fun e he text htext => ((ih e he).phrase text htext).nested
  | @operation t mapped kind operator plain left right hleft hright =>
    refine ⟨rfl, ?_, ?_⟩
    · have hupper := upper_not_mem_of_ofText operator plain
      simp only [Cql.logicalWords, List.mem_pair, not_or] at hupper
      simp [isLogical, hupper]
    · intro text h
      obtain ⟨l, r, hl, hr, rfl⟩ := (yields_comparison kind operator hleft hright).mp h
      have hr := hright.phrase r hr
      simp only [String.toList_append, List.append_assoc]
      apply (hleft.phrase l hl).append
      apply (isPlainPhrase_operator operator plain).append
      split
      · rw [String.toList_append, String.toList_append]
        apply (Cql.isPlainWord_group Cql.compact_nil hr.nested).phrase
      · apply hr
  | @sign t kind operand hoperand =>
    refine ⟨rfl, isLogical_eq_false (by simp [kind]), ?_⟩
    intro text h
    rw [cql_of, kind] at h
    obtain ⟨sign, hsign, operand, hyields, rfl⟩ := yields_unaryCql h
    apply isPlainPhrase_signCql hsign (hoperand.phrase operand hyields)

/-! ### A comparison joined to a condition -/

/-- Whether an expression is a disjunction. -/
def isDisjunction : Expr → Bool
  | .missing => false
  | .of t => t.kind = .binary && Text.upper t.operator = "OR"

theorem isDisjunction_eq_false (h : Text.upper t.operator ∉ Cql.logicalWords) :
  (Expr.of t).isDisjunction = false
  := by
  simp only [Cql.logicalWords, List.mem_pair, not_or] at h
  simp [isDisjunction, h.2]

/-- The formula that is read where a comparison is joined to a condition by `AND` without
parentheses: it constrains the last part of a disjunction only. -/
def guarded : Expr → Expr → Cql.Formula Expr
  | .missing, guard => .all [formula .missing, .comparison guard]
  | .of ⟨kind, operator, left, right, operand, table, column, value, name, args, items, distinct,
      query⟩, guard =>
    if kind = .binary && Text.upper operator = "OR" then
      .any [left.formula, right.guarded guard]
    else
      .all [formula (.of ⟨kind, operator, left, right, operand, table, column, value, name, args,
        items, distinct, query⟩), .comparison guard]

theorem guarded_of_not_isDisjunction (h : e.isDisjunction = false) (guard : Expr) :
  e.guarded guard = .all [e.formula, .comparison guard]
  := by
  cases e with
  | missing => rw [guarded]
  | of t =>
    cases t
    rw [guarded]
    exact if_neg (Bool.eq_false_iff.mp h)

theorem guarded_of_isDisjunction (h : (Expr.of t).isDisjunction = true) (guard : Expr) :
  (Expr.of t).guarded guard = .any [t.left.formula, t.right.guarded guard]
  := by
  cases t
  rw [guarded]
  exact if_pos h

theorem formula_of_isDisjunction (h : (Expr.of t).isDisjunction = true) :
  (Expr.of t).formula = .any [t.left.formula, t.right.formula]
  := by
  simp only [isDisjunction, Bool.and_eq_true, decide_eq_true_eq] at h
  have hand : Text.upper t.operator ≠ "AND" := by
    rw [h.2]
    decide
  rw [formula_of, if_neg hand, if_pos h.2]

/-- The comparison that is joined is the last one. -/
theorem comparisons_guarded (e guard : Expr) :
  (e.guarded guard).comparisons = e.formula.comparisons ++ [guard]
  := by
  induction e using Expr.induction_on with
  | missing => rfl
  | of t _ hright _ _ _ _ =>
    cases h : (Expr.of t).isDisjunction with
    | false =>
      rw [guarded_of_not_isDisjunction h, comparisons_all_pair]
      rfl
    | true =>
      rw [guarded_of_isDisjunction h, formula_of_isDisjunction h, comparisons_any_pair,
        comparisons_any_pair, hright, List.append_assoc]

/-- A condition is true where all of its comparisons are. -/
theorem isPositive_formula (e : Expr) :
  e.formula.IsPositive
  := by
  induction e using Expr.induction_on with
  | missing => apply isPositive_comparison
  | of t hleft hright _ _ _ _ =>
    rw [formula_of]
    split
    · apply hleft.all hright
    · split
      · apply hleft.any
      · split
        · apply (isPositive_comparison _).all (isPositive_comparison _)
        · apply isPositive_comparison

/-- The comparison that is joined constrains the whole condition exactly if the condition is no
disjunction. -/
theorem truth_guarded_iff {guard : Expr} :
  (∀ v, (e.guarded guard).truth v 0
      = (e.formula.truth v 0 && v e.formula.comparisons.length))
    ↔ e.isDisjunction = false
  := by
  constructor
  · -- where the joined comparison alone is false, a disjunction is still true
    contrapose!
    intro h
    obtain ⟨t, rfl⟩ : ∃ t, e = .of t := by
      cases e with
      | missing => cases h rfl
      | of t => exact ⟨t, rfl⟩
    rw [ne_eq, Bool.not_eq_false] at h
    use fun k => k < (Expr.of t).formula.comparisons.length
    have hleft : t.left.formula.truth (fun k => k < (Expr.of t).formula.comparisons.length) 0
        = true := by
      apply isPositive_formula
      intro k hk
      rw [formula_of_isDisjunction h, comparisons_any_pair, List.length_append, decide_eq_true_eq]
      omega
    rw [guarded_of_isDisjunction h, truth_any_pair, hleft]
    simp
  · intro h v
    rw [guarded_of_not_isDisjunction h, truth_all_pair, Nat.zero_add]
    rfl

/-! ### Reading -/

theorem isDisjunction_iff (e : Expr) :
  e.isDisjunction = true ↔ e.isLogical = true ∧ e.operatorKey = "OR"
  := by
  cases e with
  | missing => simp [isDisjunction, isLogical]
  | of t =>
    have hkey {keyword : String} (hkeyword : keyword ∈ Cql.logicalWords)
        (h : Text.upper t.operator = keyword) : (Expr.of t).operatorKey = keyword :=
      normalize_of_logical hkeyword h
    simp only [isDisjunction, isLogical, Bool.and_eq_true, Bool.or_eq_true, decide_eq_true_eq]
    constructor
    · rintro ⟨hkind, hor⟩
      exact ⟨⟨hkind, .inr hor⟩, hkey (by decide) hor⟩
    · rintro ⟨⟨hkind, hand | hor⟩, hword⟩
      · rw [hkey (by decide) hand] at hword
        cases (by decide : "AND" ≠ "OR") hword
      · exact ⟨hkind, hor⟩

/-- A disjunction below a disjunction has no parentheses. -/
theorem operandCql_of_isDisjunction (h : e.isDisjunction = true) (text : String) :
  operandCql e "OR" text = text
  := by
  simp [operandCql, ((isDisjunction_iff e).mp h).2]

/-- A condition that is no disjunction is read as parts of a conjunction. -/
theorem IsReadAs.readsAll (h : e.IsReadAs text) (hand : e.isDisjunction = false) :
  ∃ fs, Cql.ReadsAll text.toList fs ∧ Agrees e.formula (.all fs)
  := by
  unfold IsReadAs at h
  rwa [if_neg] at h
  rw [← isDisjunction_iff, hand]
  exact Bool.false_ne_true

theorem IsReadAs.readsAll_operand (h : e.IsReadAs text) (hand : e.isDisjunction = false) :
  ∃ fs, Cql.ReadsAll (operandCql e "OR" text).toList fs ∧ Agrees e.formula (.all fs)
  := by
  unfold operandCql
  split
  · apply h.group
  · apply h.readsAll hand

/-- The text of a condition with the text of a comparison joined to it is read as the guarded
formula. -/
def IsReadGuarded (e guard : Expr) (text guardText : String) : Prop :=
  ∃ fs, Cql.ReadsAny (text ++ " AND " ++ guardText).toList fs ∧ Agrees (e.guarded guard) (.any fs)

section

variable {guard : Expr} {guardText : String}
  (hguard : guard.cql.Yields guardText)
  (hread : Cql.ReadsAll guardText.toList [.comparison guardText])

include hguard hread

theorem isReadGuarded_of_readsAll (hand : e.isDisjunction = false)
    (h : ∃ fs, Cql.ReadsAll text.toList fs ∧ Agrees e.formula (.all fs)) :
  e.IsReadGuarded guard text guardText
  := by
  obtain ⟨fs, hfs, hagrees⟩ := h
  have hall := hagrees.all_append (Agrees.comparison hguard).all_singleton
  rw [← guarded_of_not_isDisjunction hand] at hall
  refine ⟨_, ?_, hall.any_singleton⟩
  rw [String.toList_append, String.toList_append]
  apply (hfs.append hread).any

/-- A condition with a comparison joined to it is read as the guarded formula. -/
theorem IsConditionOf.isReadGuarded {operand : Expr → Prop}
    (hoperand : ∀ e, operand e → e.IsPhrased) (he : e.IsConditionOf operand)
    (h : e.cql.Yields text) :
  e.IsReadGuarded guard text guardText
  := by
  have hsingle {e : Expr} (he : e.IsConditionOf operand) {text : String} (h : e.cql.Yields text)
      (hand : e.isDisjunction = false) : e.IsReadGuarded guard text guardText :=
    isReadGuarded_of_readsAll hguard hread hand ((he.isReadAs hoperand h).readsAll hand)
  -- the comparison moves down the right operands of nested disjunctions
  induction he generalizing text with
  | @logical t kind operator left right hleft hright =>
    cases hor : (Expr.of t).isDisjunction with
    | false => apply hsingle (.logical kind operator left right) h hor
    | true =>
      have hupper : Text.upper t.operator = "OR" := by
        simpa [isDisjunction, kind] using hor
      obtain ⟨l, r, hl, hr, rfl⟩ := yields_logical kind (by decide) hupper h
      obtain ⟨fs, hfs, hagrees⟩ := (left.isReadAs hoperand hl).operand_or
      obtain ⟨gs, hgs, hagrees'⟩ :
          t.right.IsReadGuarded guard (operandCql t.right "OR" r) guardText := by
        cases hlast : t.right.isDisjunction with
        | false =>
          have hall := (right.isReadAs hoperand hr).readsAll_operand hlast
          apply isReadGuarded_of_readsAll hguard hread hlast hall
        | true =>
          rw [operandCql_of_isDisjunction hlast]
          apply hright hr
      have hany := hagrees.any_append hagrees'
      rw [← guarded_of_isDisjunction hor] at hany
      refine ⟨fs ++ gs, ?_, hany⟩
      simpa using hfs.append hgs
  | comparison kind operator plain left right =>
    apply hsingle (.comparison kind operator plain left right) h
    apply isDisjunction_eq_false (upper_not_mem_of_ofText operator plain)
  | between kind operator bounds left low high =>
    apply hsingle (.between kind operator bounds left low high) h
    apply isDisjunction_eq_false (upper_not_mem_of_between operator)

end

theorem IsConditionOf.isPresent {operand : Expr → Prop} (he : e.IsConditionOf operand) :
  e.isPresent = true
  := by
  cases he <;> rfl

/-- The comparison that says that a key is there. -/
def keyGuard (key : String) : Expr :=
  .binary "IS NOT" (.column key) .null

theorem yields_keyGuard :
  (keyGuard fallbackKey).cql.Yields (Cql.quoteIdentifier fallbackKey ++ " IS NOT NULL")
  := ⟨_, rfl⟩

theorem readsAll_keyGuard (key : String) :
  Cql.ReadsAll (Cql.quoteIdentifier key ++ " IS NOT NULL").toList
    [.comparison (Cql.quoteIdentifier key ++ " IS NOT NULL")]
  := by
  have hmapped : Cql.Operator.ofText "IS NOT" = .ok ⟨"IS NOT", none⟩ := rfl
  have hnull : Cql.IsPlainWord "NULL".toList :=
    ⟨Cql.compact_of_isWordChar (by decide), by decide, by decide⟩
  have hkey : Cql.IsPlainWord (Cql.quoteIdentifier key).toList := Cql.isPlainWord_quoteBare _
  refine readsAll_operator hmapped (by decide) hkey.phrase hnull.phrase ?_
  simp only [String.append_assoc]
  rfl

end Expr

/-! ### Views -/

/-- A condition that compares no column with a constant gives no key. -/
theorem firstEquality?_eq_none {filter : Expr}
    (h : ∀ t ∈ filter.terms, t.isKeyComparison = false) :
  firstEquality? filter = none
  := by
  have hfind : filter.terms.find? (·.isKeyComparison) = none := by
    rw [List.find?_eq_none]
    intro t ht
    rw [h t ht]
    exact Bool.false_ne_true
  rw [firstEquality?, hfind]

/-- The condition of a view without a key ends in the guard of the assumed key. -/
theorem yields_viewFilterCql {filter : Expr} {key : String} (h : filter.isPresent = true) :
  (viewFilterCql filter false key).Yields text
    ↔ ∃ condition, filter.cql.Yields condition
      ∧ text = condition ++ " AND " ++ (Cql.quoteIdentifier key ++ " IS NOT NULL")
  := by
  simp [viewFilterCql, h]

namespace CreateView

/-- The text of a view with the given columns, table, condition and key. -/
def textOf (s : CreateView) (columns : String) (base : TableName) (clause key : String) : String :=
  String.intercalate "\n"
    ["CREATE MATERIALIZED VIEW " ++ optionalText (s.ifNotExists || s.orReplace) "IF NOT EXISTS "
       ++ s.name.cql ++ " AS",
     "  SELECT " ++ columns,
     "  FROM " ++ base.cql,
     "  WHERE " ++ clause,
     "  PRIMARY KEY (" ++ Cql.quoteIdentifier key ++ ")"]

theorem text_of_fallbackKey {options : RenderingOptions} {s : CreateView} {query : Select}
    {r : Rendering} (hquery : s.definition = some query)
    (hkey : firstEquality? query.filter = none)
    (h : (Statement.createView s).render options = .ok r) :
  ∃ columns base clause, (columnsCql query.columns).Yields columns
    ∧ (baseTable "CREATE VIEW" (query.sources.getD [])).Yields base
    ∧ (viewFilterCql query.filter false fallbackKey).Yields clause
    ∧ r.text = s.textOf columns base clause fallbackKey
  := by
  obtain ⟨d, hd, hyields⟩ := Statement.RendersAs.yields ⟨r, h, rfl⟩
  obtain rfl : s.cql = d := Option.some.inj hd
  unfold CreateView.cql at hyields
  obtain ⟨-, -, hyields⟩ := (Draft.yields_bind _ _ _).mp hyields
  rw [hquery] at hyields
  simp only [hkey, Draft.yields_bind, Draft.yields_pure] at hyields
  obtain ⟨base, hbase, columns, hcolumns, -, -, clause, hclause, -, -, -, -, -, -, htext⟩ := hyields
  exact ⟨columns, base, clause, hcolumns, hbase, hclause, htext⟩

/-- Where the condition of a view compares no column with a constant, the rendered condition is
read as the condition with a guard of the assumed key. The guard constrains the whole condition
exactly if the condition is no disjunction. -/
theorem readPredicate_clause {options : RenderingOptions} {s : CreateView} {query : Select}
    {r : Rendering} (hquery : s.definition = some query)
    (hfilter : query.filter.IsConditionOf Expr.IsScalar)
    (hkey : ∀ t ∈ query.filter.terms, t.isKeyComparison = false)
    (h : (Statement.createView s).render options = .ok r) :
  ∃ columns base clause f, (columnsCql query.columns).Yields columns
    ∧ (baseTable "CREATE VIEW" (query.sources.getD [])).Yields base
    ∧ r.text = s.textOf columns base clause fallbackKey
    ∧ Cql.readPredicate clause = some f
    ∧ List.Forall₂ (fun c t => c.cql.Yields t)
        (query.filter.formula.comparisons ++ [Expr.keyGuard fallbackKey]) f.comparisons
    ∧ (∀ v, f.truth v 0 = (query.filter.guarded (Expr.keyGuard fallbackKey)).truth v 0)
    ∧ ((∀ v, f.truth v 0
          = (query.filter.formula.truth v 0 && v query.filter.formula.comparisons.length))
        ↔ query.filter.isDisjunction = false)
  := by
  obtain ⟨columns, base, clause, hcolumns, hbase, hclause, htext⟩ :=
    text_of_fallbackKey hquery (firstEquality?_eq_none hkey) h
  obtain ⟨condition, hcondition, hjoined⟩ := (yields_viewFilterCql hfilter.isPresent).mp hclause
  obtain ⟨fs, hread, hagrees⟩ := hfilter.isReadGuarded Expr.yields_keyGuard
    (Expr.readsAll_keyGuard fallbackKey) (fun _ => Expr.IsScalar.isPhrased) hcondition
  rw [← hjoined] at hread
  have htruth (v : Nat → Bool) : (Cql.Formula.any fs).truth v 0
      = (query.filter.guarded (Expr.keyGuard fallbackKey)).truth v 0 := (hagrees.truth v 0).symm
  refine ⟨columns, base, clause, .any fs, hcolumns, hbase, htext, ?_, ?_, htruth, ?_⟩
  · apply hread.readWithin
    rw [String.length_toList]
    apply Nat.lt_succ_self
  · rw [← Expr.comparisons_guarded]
    apply hagrees.comparisons
  · simp only [htruth]
    apply Expr.truth_guarded_iff

/-- A view over a table `t`. -/
def filtered (filter : Expr) : CreateView where
  name := ⟨"", "v"⟩
  definition := some
    { Select.blank with
      sources := some [{ TableRef.blank with table := ⟨"", "t"⟩ }]
      filter := filter }

/-- A disjunction below a conjunction: `(a > -b OR c IN (1, d + 2)) AND e BETWEEN 3 AND 4`. -/
def nestedFilter : Expr :=
  .binary "and"
    (.binary "or" (.binary ">" (.column "a") (.unary "-" (.column "b")))
      (.binary "in" (.column "c") (.list [.number "1", .binary "+" (.column "d") (.number "2")])))
    (.binary "between" (.column "e") (.list [.number "3", .number "4"]))

theorem isConditionOf_nestedFilter :
  nestedFilter.IsConditionOf Expr.IsScalar
  := by
  have hsimple {t : Term} (h : t.kind ∈ [.column, .star, .text, .number, .bool, .null, .param]
      ∧ t.isWellSpelled = true) : (Expr.of t).IsScalar := .simple h.1 h.2
  have hcompare {operator : String} {mapped : Cql.Operator} {left right : Expr}
      (hoperator : Cql.Operator.ofText operator = .ok mapped)
      (hplain : mapped.cql ∉ Cql.logicalWords) (hleft : left.IsScalar) (hright : right.IsScalar) :
      (Expr.binary operator left right).IsConditionOf Expr.IsScalar :=
    .comparison rfl hoperator hplain hleft hright
  have hplus : Cql.Operator.ofText "+" = .ok ⟨"+", none⟩ := rfl
  have hgreater : Cql.Operator.ofText ">" = .ok ⟨">", none⟩ := rfl
  have hin : Cql.Operator.ofText "in" = .ok ⟨"IN", none⟩ := rfl
  have hsum : (Expr.binary "+" (.column "d") (.number "2")).IsScalar :=
    .operation rfl hplus (by decide) (hsimple (by decide)) (hsimple (by decide))
  have hlist : (Expr.list [.number "1", .binary "+" (.column "d") (.number "2")]).IsScalar := by
    apply Expr.IsScalar.list rfl
    exact List.forall_mem_cons.mpr ⟨hsimple (by decide), List.forall_mem_singleton.mpr hsum⟩
  apply Expr.IsConditionOf.logical rfl (by decide)
  · apply Expr.IsConditionOf.logical rfl (by decide)
    · apply hcompare hgreater (by decide) (hsimple (by decide))
      apply Expr.IsScalar.sign rfl (hsimple (by decide))
    · apply hcompare hin (by decide) (hsimple (by decide)) hlist
  · apply Expr.IsConditionOf.between rfl (by decide) ⟨rfl, rfl⟩
    all_goals exact hsimple (by decide)

theorem readPredicate_clause_nestedFilter :
  ∃ r, (Statement.createView (filtered nestedFilter)).render {} = .ok r
    ∧ ∃ columns base clause f,
      r.text = (filtered nestedFilter).textOf columns base clause fallbackKey
      ∧ Cql.readPredicate clause = some f
      ∧ ∀ v, f.truth v 0
        = (nestedFilter.formula.truth v 0 && v nestedFilter.formula.comparisons.length)
  := by
  have hkey : ∀ t ∈ nestedFilter.terms, t.isKeyComparison = false := by decide
  have hand : nestedFilter.isDisjunction = false := by decide
  have hr : (Statement.createView (filtered nestedFilter)).render {} = .ok
      ⟨"CREATE MATERIALIZED VIEW v AS\n  SELECT *\n  FROM t\n  WHERE (a > -b OR c IN (1, d + 2)) AND e >= 3 AND e <= 4 AND id IS NOT NULL\n  PRIMARY KEY (id)",
        ["no equality predicate to infer the view key from; using id",
         "CQL does not support OR in WHERE clauses; the store is likely to reject this predicate"]⟩ := by
    decide +kernel
  obtain ⟨columns, base, clause, f, -, -, htext, hread, -, -, htruth⟩ :=
    readPredicate_clause rfl isConditionOf_nestedFilter hkey hr
  exact ⟨_, hr, columns, base, clause, f, htext, hread, htruth.mpr hand⟩

/-- A guard that constrains a part of the condition only: the view `a > 1 OR b > 2` keeps rows
without the key. -/
theorem render_filtered_disjunction :
  (Statement.createView (filtered (.or (.binary ">" (.column "a") (.number "1"))
      (.binary ">" (.column "b") (.number "2"))))).render {}
    = .ok
      ⟨"CREATE MATERIALIZED VIEW v AS\n  SELECT *\n  FROM t\n  WHERE a > 1 OR b > 2 AND id IS NOT NULL\n  PRIMARY KEY (id)",
        ["no equality predicate to infer the view key from; using id",
         "CQL does not support OR in WHERE clauses; the store is likely to reject this predicate"]⟩
    ∧ ∃ f, Cql.readPredicate "a > 1 OR b > 2 AND id IS NOT NULL" = some f
      ∧ f.comparisons = ["a > 1", "b > 2", "id IS NOT NULL"]
      ∧ f.truth (fun k => k < 2) 0 = true
  := by
  have hread : (Cql.readPredicate "a > 1 OR b > 2 AND id IS NOT NULL").map
      (fun f => (f.comparisons, f.truth (fun k => k < 2) 0))
      = some (["a > 1", "b > 2", "id IS NOT NULL"], true) := by
    decide +kernel
  obtain ⟨f, hf, hvalues⟩ := Option.map_eq_some_iff.mp hread
  obtain ⟨hcomparisons, htruth⟩ := Prod.mk.inj hvalues
  exact ⟨by decide, f, hf, hcomparisons, htruth⟩

end CreateView

end CqlGateway

import CqlGateway.Proofs.Cql.Draft
import CqlGateway.Proofs.Cql.Phrase
import CqlGateway.Proofs.Statement.Induction

/-!
# Renderings of expressions

An expression that is rendered at all is rendered as a phrase. Of its parts only numbers, names of
functions and parameters are copied as they are; everything else is a fixed word or stands in
quotes.
-/

namespace CqlGateway

open Draft (reject yields_bind yields_map yields_pure yields_reject)

variable {name : String} {op : String}

namespace Cql

/-! ### Functions and operators that CQL has -/

theorem mem_of_lookup_eq_some {α : Type} {key : String} {a : α} {table : List (String × α)}
    (h : table.lookup key = some a) :
  (key, a) ∈ table
  := by
  obtain ⟨before, behind, rfl, -⟩ := List.lookup_eq_some_iff.mp h
  simp

theorem Function.isPlain_of_nullary (h : (ofName name).nullary = true) :
  isPlain (ofName name).name.toList = true
  := by
  unfold ofName at h ⊢
  split
  next haggregate =>
    rw [if_pos haggregate] at h
    cases h
  next haggregate =>
    rw [if_neg haggregate] at h
    cases hlookup : scalars.lookup (key name) with
    | none =>
      rw [hlookup] at h
      cases h
    | some f =>
      have hscalars : ∀ p ∈ scalars, isPlain p.2.name.toList = true := by decide
      apply hscalars _ (mem_of_lookup_eq_some hlookup)

theorem Function.isPlain_ofName (h : isPlain name.toList = true) :
  isPlain (ofName name).name.toList = true
  := by
  unfold ofName
  split
  next haggregate =>
    have haggregates : ∀ s ∈ aggregates, isPlain s.toList = true := by decide
    apply haggregates
    simpa [isAggregate] using haggregate
  next =>
    cases hlookup : scalars.lookup (key name) with
    | none => apply h
    | some f =>
      have hscalars : ∀ p ∈ scalars, isPlain p.2.name.toList = true := by decide
      apply hscalars _ (mem_of_lookup_eq_some hlookup)

theorem Operator.mem_table {mapped : Operator} (h : ofText op = .ok mapped) :
  (normalize op, mapped) ∈ table
  := by
  unfold ofText at h
  split at h
  next hlookup =>
    cases h
    apply mem_of_lookup_eq_some hlookup
  next =>
    split at h <;> cases h

theorem Operator.isSeparator_cql {mapped : Operator} (h : ofText op = .ok mapped) :
  isSeparator (" " ++ mapped.cql ++ " ") = true
  := by
  have htable : ∀ p ∈ table, isSeparator (" " ++ p.2.cql ++ " ") = true := by decide
  apply htable _ (mem_table h)

end Cql

namespace Expr

variable {operator text : String}
variable {bounds : Option (Draft (String × String))} {argsDraft : Draft (List String)}
  {leftDraft rightDraft : Draft String}

/-! ### Expressions by their parts -/

theorem cql_of (t : Term) :
  (Expr.of t).cql
    = match t.kind with
      | .column => columnCql t.column
      | .star => pure "*"
      | .text => pure (Cql.quoteText (literalText t.value))
      | .number => pure t.value.display
      | .bool => pure (boolCql t.value)
      | .null => pure "NULL"
      | .param => pure (paramCql t.name)
      | .function => callCql .function t.name t.distinct t.args (cqlAll t.args)
      | .aggregate => callCql .aggregate t.name t.distinct t.args (cqlAll t.args)
      | .list => enclosed "(" ")" <$> cqlAll t.items
      | .binary =>
        binaryCql t.operator t.left t.right t.left.cql t.right.cql (boundsCql t.right)
      | .unary => unaryCql t.operator t.operand.cql
      | .subquery => reject .subqueryExpression
      | .other type => reject (.unknownTermKind type)
  := by
  cases t
  exact cql.eq_def _

theorem cqlAll_eq_each (es : List Expr) :
  cqlAll es = Draft.each cql es
  := by
  induction es with
  | nil => rfl
  | cons e es ih =>
    rw [cqlAll, Draft.each, ih]

theorem valueCqlAll_eq_each (es : List Expr) :
  valueCqlAll es = Draft.each valueCql es
  := by
  induction es with
  | nil => rfl
  | cons e es ih =>
    rw [valueCqlAll, Draft.each, ih]

/-- The rendering of a term as a value differs for lists only. -/
theorem valueCql_of (t : Term) :
  (Expr.of t).valueCql
    = if t.kind = .list then enclosed "[" "]" <$> valueCqlAll t.items else (Expr.of t).cql
  := by
  cases t
  rw [valueCql]

theorem boundsCql_eq_some {e : Expr} {bounds : Draft (String × String)}
    (h : boundsCql e = some bounds) :
  ∃ lo hi, e.kind? = some .list ∧ e.items = [lo, hi]
    ∧ bounds = do return (← lo.cql, ← hi.cql)
  := by
  match e with
  | .missing => cases h
  | .of ⟨kind, _, _, _, _, _, _, _, _, _, items, _, _⟩ =>
    rw [boundsCql] at h
    split at h
    next hkind =>
      match items with
      | [lo, hi] =>
        rw [pairCql] at h
        exact ⟨lo, hi, congrArg some hkind, rfl, (Option.some.inj h).symm⟩
      | [] | [_] | _ :: _ :: _ :: _ => cases h
    next => cases h

theorem yields_callCql {kind : TermKind} {distinct : Bool} {args : List Expr} {f : Cql.Function}
    (hf : Cql.Function.ofName name = f) :
  (callCql kind name distinct args argsDraft).Yields text
    ↔ if f.nullary = true then text = f.name ++ "()"
      else if (args.isEmpty && f.kind = .aggregate && f.name = "COUNT") = true then
        text = "COUNT(*)"
      else ∃ texts, argsDraft.Yields texts ∧ text = f.name ++ enclosed "(" ")" texts
  := by
  rw [callCql, hf]
  by_cases hkind : f.kind = .unmapped
  · by_cases hnullary : f.nullary = true
    · simp [hnullary, hkind]
    · simp [hnullary, hkind]
  · by_cases hnullary : f.nullary = true
    · simp [hnullary, hkind]
    · cases hcount : args.isEmpty && decide (f.kind = .aggregate) && decide (f.name = "COUNT") with
      | true => simp [hnullary, hkind]
      | false => simp [hnullary, hkind]

/-- What a binary operator is rendered as: two comparisons for two bounds, and otherwise its
operands with the operator between them. -/
theorem yields_binaryCql {left right : Expr} (hop : Cql.Operator.normalize operator = op) :
  (binaryCql operator left right leftDraft rightDraft bounds).Yields text
    ↔ left.isPresent = true ∧ right.isPresent = true
      ∧ if op = "BETWEEN" then
          ∃ boundsDraft subject lo hi, bounds = some boundsDraft ∧ leftDraft.Yields subject
            ∧ boundsDraft.Yields (lo, hi)
            ∧ text = subject ++ " >= " ++ lo ++ " AND " ++ subject ++ " <= " ++ hi
        else
          ∃ mapped l r, Cql.Operator.ofText op = .ok mapped ∧ leftDraft.Yields l
            ∧ rightDraft.Yields r
            ∧ text = operandCql left op l ++ " " ++ mapped.cql ++ " "
              ++ (if (op = "IN" && right.kind? ≠ some .list) = true then
                  "(" ++ operandCql right op r ++ ")" else operandCql right op r)
  := by
  simp only [binaryCql, hop]
  cases left.isPresent with
  | false => simp
  | true =>
    cases right.isPresent with
    | false => simp
    | true =>
      by_cases hbetween : op = "BETWEEN"
      · simp only [hbetween]
        cases bounds with
        | none => simp
        | some boundsDraft =>
          simp only [Bool.not_true, Bool.or_self, Bool.false_eq_true, if_false, if_true,
            yields_bind, yields_pure, Prod.exists, Option.some.injEq, true_and]
          constructor
          · rintro ⟨subject, hsubject, lo, hi, hbounds, htext⟩
            exact ⟨boundsDraft, subject, lo, hi, rfl, hsubject, hbounds, htext⟩
          · rintro ⟨_, subject, lo, hi, rfl, hsubject, hbounds, htext⟩
            exact ⟨subject, hsubject, lo, hi, hbounds, htext⟩
      · simp only [hbetween, Bool.not_true, Bool.or_self, Bool.false_eq_true, if_false,
          yields_bind, Draft.yields_ofExcept, true_and]
        apply exists_congr
        intro mapped
        cases mapped.caution with
        | none => simp
        | some text => simp

/-- What a unary operator is rendered as: a sign and its operand. -/
theorem yields_unaryCql {operandDraft : Draft String}
    (h : (unaryCql operator operandDraft).Yields text) :
  ∃ sign ∈ ["-", "+"], ∃ operand, operandDraft.Yields operand ∧ text = signCql sign operand
  := by
  unfold unaryCql at h
  split at h
  · obtain ⟨operand, hoperand, htext⟩ := (yields_bind _ _ _).mp h
    exact ⟨"-", by simp, operand, hoperand, (yields_pure _ _).mp htext⟩
  · obtain ⟨operand, hoperand, htext⟩ := (yields_bind _ _ _).mp h
    exact ⟨"+", by simp, operand, hoperand, (yields_pure _ _).mp htext⟩
  · cases yields_reject _ _ h
  · cases yields_reject _ _ h
  · cases yields_reject _ _ h
  · cases yields_reject _ _ h
  · cases yields_reject _ _ h

/-! ### Texts that are copied -/

mutual

/-- The texts that the rendering of an expression copies as they are. -/
def copiedTexts : Expr → List String
  | .missing => []
  | .of ⟨kind, _, left, right, operand, _, _, value, name, args, items, _, _⟩ =>
    match kind with
    | .number => [value.display]
    | .param => [paramCql name]
    | .function | .aggregate =>
      if (Cql.Function.ofName name).nullary then []
      else (Cql.Function.ofName name).name :: copiedTextsAll args
    | .list => copiedTextsAll items
    | .binary => left.copiedTexts ++ right.copiedTexts
    | .unary => operand.copiedTexts
    | _ => []

/-- The texts that the renderings of expressions copy as they are. -/
def copiedTextsAll : List Expr → List String
  | [] => []
  | e :: es => e.copiedTexts ++ copiedTextsAll es

end

theorem copiedTexts_of (t : Term) :
  (Expr.of t).copiedTexts
    = match t.kind with
      | .number => [t.value.display]
      | .param => [paramCql t.name]
      | .function | .aggregate =>
        if (Cql.Function.ofName t.name).nullary then []
        else (Cql.Function.ofName t.name).name :: copiedTextsAll t.args
      | .list => copiedTextsAll t.items
      | .binary => t.left.copiedTexts ++ t.right.copiedTexts
      | .unary => t.operand.copiedTexts
      | _ => []
  := by
  cases t
  rw [copiedTexts.eq_def]

theorem copiedTexts_of_list {e : Expr} (h : e.kind? = some .list) :
  e.copiedTexts = copiedTextsAll e.items
  := by
  cases e with
  | missing => cases h
  | of t =>
    have hkind : t.kind = .list := Option.some.inj h
    rw [copiedTexts_of, hkind]
    rfl

@[simp]
theorem mem_copiedTextsAll {s : String} {es : List Expr} :
  s ∈ copiedTextsAll es ↔ ∃ e ∈ es, s ∈ e.copiedTexts
  := by
  induction es with
  | nil => simp [copiedTextsAll]
  | cons e es ih => simp [copiedTextsAll, ih]

/-! ### Every rendering is a phrase -/

variable {raw : String → Prop}

open Cql (Phrase)

theorem phrase_columnCql {column : String} (h : (columnCql column).Yields text) :
  Phrase raw text
  := by
  unfold columnCql at h
  split at h
  · obtain rfl := (yields_pure _ _).mp h
    apply Phrase.word (by decide)
  · split at h
    · cases yields_reject _ _ h
    · obtain rfl := (yields_pure _ _).mp h
      apply Phrase.name

theorem phrase_boolCql (value : Node) :
  Phrase raw (boolCql value)
  := by
  apply Phrase.word
  unfold boolCql
  split <;> decide

theorem phrase_callCql
    {kind : TermKind} {distinct : Bool} {args : List Expr}
    (hname : (Cql.Function.ofName name).nullary = false → raw (Cql.Function.ofName name).name)
    (hargs : (Cql.Function.ofName name).nullary = false → ∀ texts, argsDraft.Yields texts →
      ∀ s ∈ texts, Phrase raw s)
    (h : (callCql kind name distinct args argsDraft).Yields text) :
  Phrase raw text
  := by
  rw [yields_callCql rfl] at h
  split at h
  next hnullary =>
    subst h
    have hplain := Cql.Function.isPlain_of_nullary hnullary
    apply Phrase.behind (.word (Cql.isWord_of_isPlain hplain)) (by decide)
  next hnullary =>
    rw [Bool.not_eq_true] at hnullary
    split at h
    · subst h
      apply Phrase.word (by decide)
    · obtain ⟨texts, htexts, rfl⟩ := h
      apply Phrase.call (.copied (hname hnullary)) (hargs hnullary texts htexts)

theorem phrase_operandCql (h : Phrase raw text) (operand : Expr) (parent : String) :
  Phrase raw (operandCql operand parent text)
  := by
  unfold operandCql
  split
  · apply Phrase.behind (.before (by decide) h) (by decide)
  · apply h

theorem phrase_signCql {sign operand : String} (hsign : sign ∈ ["-", "+"])
    (h : Phrase raw operand) :
  Phrase raw (signCql sign operand)
  := by
  rw [List.mem_pair] at hsign
  unfold signCql
  split
  next =>
    have hlead : Cql.isLead (sign ++ "(") = true := by
      rcases hsign with rfl | rfl <;> decide
    apply Phrase.behind (.before hlead h) (by decide)
  next hoperand =>
    rcases hsign with rfl | rfl
    · apply Phrase.minus (by simpa using hoperand) h
    · apply Phrase.before (by decide) h

theorem phrase_binaryCql {left right : Expr} (hleft : ∀ s, leftDraft.Yields s → Phrase raw s)
    (hright : ∀ s, rightDraft.Yields s → Phrase raw s)
    (hbounds : ∀ d ∈ bounds, ∀ lo hi, d.Yields (lo, hi) → Phrase raw lo ∧ Phrase raw hi)
    (h : (binaryCql operator left right leftDraft rightDraft bounds).Yields text) :
  Phrase raw text
  := by
  obtain ⟨-, -, h⟩ := (yields_binaryCql rfl).mp h
  split at h
  next =>
    obtain ⟨boundsDraft, subject, lo, hi, hdraft, hsubject, hpair, rfl⟩ := h
    obtain ⟨hlo, hhi⟩ := hbounds boundsDraft hdraft lo hi hpair
    have hs := hleft subject hsubject
    apply Phrase.join _ (by decide) hhi
    apply Phrase.join _ (by decide) hs
    apply Phrase.join hs (by decide) hlo
  next =>
    obtain ⟨mapped, l, r, hmapped, hl, hr, rfl⟩ := h
    have hsep := Cql.Operator.isSeparator_cql hmapped
    have hl := phrase_operandCql (hleft l hl) left (Cql.Operator.normalize operator)
    have hr := phrase_operandCql (hright r hr) right (Cql.Operator.normalize operator)
    have hspaced (l : String) :
        l ++ " " ++ mapped.cql ++ " " = l ++ (" " ++ mapped.cql ++ " ") := by
      simp only [String.append_assoc]
    rw [hspaced]
    apply Phrase.join hl hsep
    split
    · apply Phrase.behind (.before (by decide) hr) (by decide)
    · apply hr

theorem phrase_cql (e : Expr) (hraw : ∀ s ∈ e.copiedTexts, raw s) (h : e.cql.Yields text) :
  Phrase raw text
  := by
  induction e using Expr.induction_on generalizing text with
  | missing =>
    rw [cql] at h
    cases yields_reject _ _ h
  | of t hleft hright hbounds hoperand hargs hitems =>
    rw [cql_of] at h
    rw [copiedTexts_of] at hraw
    have hall (es : List Expr)
        (hes : ∀ e ∈ es, ∀ {text : String}, (∀ s ∈ e.copiedTexts, raw s) →
          e.cql.Yields text → Phrase raw text)
        (hcopied : ∀ s ∈ copiedTextsAll es, raw s) (texts : List String)
        (htexts : (cqlAll es).Yields texts) :
        ∀ s ∈ texts, Phrase raw s := by
      rw [cqlAll_eq_each] at htexts
      refine Draft.forall_of_each ?_ htexts
      intro e he text hyields
      apply hes e he _ hyields
      intro s hs
      apply hcopied s (mem_copiedTextsAll.mpr ⟨e, he, hs⟩)
    have hcall (kind : TermKind)
        (hyields : (callCql kind t.name t.distinct t.args (cqlAll t.args)).Yields text)
        (hcopied : ∀ s ∈ if (Cql.Function.ofName t.name).nullary then []
          else (Cql.Function.ofName t.name).name :: copiedTextsAll t.args, raw s) :
        Phrase raw text := by
      apply phrase_callCql _ _ hyields
      · intro hnullary
        rw [hnullary] at hcopied
        apply hcopied _ List.mem_cons_self
      · intro hnullary
        rw [hnullary] at hcopied
        apply hall t.args hargs
        intro s hs
        apply hcopied s (List.mem_cons_of_mem _ hs)
    generalize t.kind = kind at h hraw
    cases kind with
    | column => apply phrase_columnCql h
    | star | null =>
      obtain rfl := (yields_pure _ _).mp h
      apply Phrase.word (by decide)
    | text =>
      obtain rfl := (yields_pure _ _).mp h
      apply Phrase.text
    | number | param =>
      obtain rfl := (yields_pure _ _).mp h
      apply Phrase.copied (hraw _ (by simp))
    | bool =>
      obtain rfl := (yields_pure _ _).mp h
      apply phrase_boolCql
    | function => apply hcall .function h hraw
    | aggregate => apply hcall .aggregate h hraw
    | list =>
      obtain ⟨texts, htexts, rfl⟩ := (yields_map _ _ _).mp h
      apply Phrase.enclosed (by decide) (by decide) (by decide)
      apply hall t.items hitems hraw texts htexts
    | binary =>
      simp only [List.mem_append] at hraw
      apply phrase_binaryCql _ _ _ h
      · intro s hs
        apply hleft (fun s hs => hraw s (.inl hs)) hs
      · intro s hs
        apply hright (fun s hs => hraw s (.inr hs)) hs
      · intro d hd lo hi hpair
        obtain ⟨el, eh, hlist, hpairs, rfl⟩ := boundsCql_eq_some hd
        rw [copiedTexts_of_list hlist, hpairs] at hraw
        rw [hpairs] at hbounds
        simp only [yields_bind, yields_pure, Prod.mk.injEq] at hpair
        obtain ⟨_, hlo, _, hhi, rfl, rfl⟩ := hpair
        constructor
        · apply hbounds el (by simp) _ hlo
          intro s hs
          apply hraw s (.inr (by simp [hs]))
        · apply hbounds eh (by simp) _ hhi
          intro s hs
          apply hraw s (.inr (by simp [hs]))
    | unary =>
      obtain ⟨sign, hsign, operand, hyields, rfl⟩ := yields_unaryCql h
      apply phrase_signCql hsign (hoperand hraw hyields)
    | subquery | other name => cases yields_reject _ _ h

theorem phrase_valueCql (e : Expr) (hraw : ∀ s ∈ e.copiedTexts, raw s)
    (h : e.valueCql.Yields text) :
  Phrase raw text
  := by
  induction e using Expr.induction_on generalizing text with
  | missing =>
    rw [valueCql] at h
    cases yields_reject _ _ h
  | of t _ _ _ _ _ hitems =>
    rw [valueCql_of] at h
    split at h
    next hkind =>
      obtain ⟨texts, htexts, rfl⟩ := (yields_map _ _ _).mp h
      rw [valueCqlAll_eq_each] at htexts
      rw [copiedTexts_of, hkind] at hraw
      apply Phrase.enclosed (by decide) (by decide) (by decide)
      refine Draft.forall_of_each ?_ htexts
      intro e he text hyields
      apply hitems e he _ hyields
      intro s hs
      apply hraw s (mem_copiedTextsAll.mpr ⟨e, he, hs⟩)
    next => apply phrase_cql _ hraw h

end Expr

end CqlGateway

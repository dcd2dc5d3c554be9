import CqlGateway.Proofs.Cql.Precedence
import CqlGateway.Proofs.Text.Case

/-!
# The spelling of operators

Operators are looked up in capital letters with single blanks between their words, so their
spelling has no influence on what is rendered, with one exception: an operand is put in parentheses
if its operator reads `AND` or `OR` in some case of letters, and blanks around the operator hide
it. An expression is compared with the one whose operators are all spelled as they are looked up.
Both are turned down or both are rendered, with the same warnings, and the texts are equal exactly
if no operand loses its parentheses.
-/

namespace CqlGateway

open Draft (warnIf)
open Cql (Function Operator logicalWords)

namespace Cql.Operator

theorem upper_normalize (op : String) :
  Text.upper (normalize op) = normalize op
  := by
  have hupper : ∀ c ∈ (Text.upper op).toList, Text.upperChar c = c := by
    rw [Text.upper, String.toList_ofList]
    intro c hc
    obtain ⟨d, -, rfl⟩ := List.mem_map.mp hc
    apply Text.upperChar_upperChar
  have hchars : ∀ c ∈ (normalize op).toList, Text.upperChar c = c :=
    Text.forall_mem_intercalate_words (by decide) hupper
  rw [Text.upper, List.map_congr_left hchars, List.map_id', String.ofList_toList]

/-- An operator is looked up as it is once it has the form in which it is looked up. -/
theorem normalize_normalize (op : String) :
  normalize (normalize op) = normalize op
  := by
  rw [normalize, upper_normalize, normalize, Text.words_intercalate_words]

end Cql.Operator

/-! ### Longer texts -/

/-- The second text is at least as long as the first, and equal to it exactly if a condition is
met. -/
structure Widens (alike : Bool) (s t : String) : Prop where
  le : s.length ≤ t.length
  eq_iff : t = s ↔ alike = true

namespace Widens

variable {a b : Bool} {s t s' t' : String}

theorem refl (s : String) :
  Widens true s s
  := ⟨le_rfl, by simp⟩

/-- Texts of the same length as others can only be equal to them one by one. -/
theorem append (h : Widens a s t) (h' : Widens b s' t') :
  Widens (a && b) (s ++ s') (t ++ t')
  := by
  have hle := h.le
  have hle' := h'.le
  constructor
  · simp only [String.length_append]
    omega
  · rw [Bool.and_eq_true, ← h.eq_iff, ← h'.eq_iff]
    constructor
    · intro heq
      have hlength := congrArg String.length heq
      have hchars := congrArg String.toList heq
      simp only [String.length_append] at hlength
      simp only [String.toList_append] at hchars
      have hsame : t.toList.length = s.toList.length := by
        simp only [String.length_toList]
        omega
      obtain ⟨hleft, hright⟩ := List.append_inj hchars hsame
      exact ⟨String.toList_inj.mp hleft, String.toList_inj.mp hright⟩
    · rintro ⟨rfl, rfl⟩
      rfl

theorem before (text : String) (h : Widens a s t) :
  Widens a (text ++ s) (text ++ t)
  := by
  have happend := (refl text).append h
  rwa [Bool.true_and] at happend

theorem behind (h : Widens a s t) (text : String) :
  Widens a (s ++ text) (t ++ text)
  := by
  have happend := h.append (refl text)
  rwa [Bool.and_true] at happend

end Widens

namespace Expr

/-! ### Signs in front -/

theorem startsWithSign_append {s : String} (h : s ≠ "") (t : String) :
  startsWithSign (s ++ t) = startsWithSign s
  := by
  have hne : s.toList ≠ [] := by simpa using h
  simp only [startsWithSign, String.toList_append, List.head?_append_of_ne_nil _ hne]

theorem startsWithSign_group (s : String) :
  startsWithSign ("(" ++ s ++ ")") = false
  := by
  rw [String.append_assoc, startsWithSign_append (by decide)]
  decide

/-- A sign in front of an operator is one in front of its left operand. -/
theorem startsWithSign_operator (s op s' : String) :
  startsWithSign (s ++ " " ++ op ++ " " ++ s') = startsWithSign s
  := by
  simp only [String.append_assoc]
  by_cases hs : s = ""
  · subst hs
    rw [String.empty_append, startsWithSign_append (by decide)]
    rfl
  · apply startsWithSign_append hs

theorem length_group (s : String) :
  ("(" ++ s ++ ")").length = s.length + 2
  := by
  simp only [String.length_append]
  change 1 + s.length + 1 = s.length + 2
  omega

/-- A text in parentheses is longer than a text that is no longer without them. -/
theorem group_ne {s t : String} (h : s.length ≤ t.length) :
  "(" ++ t ++ ")" ≠ s
  := by
  intro heq
  have hlength := congrArg String.length heq
  rw [length_group] at hlength
  omega

/-- Behind a left operand that is longer by two characters, the blank before an operator stands
where the operator would stand in parentheses. -/
theorem operator_ne_group {s t s' t' op : String} {c : Char} {cs : List Char}
    (hop : op.toList = c :: cs) (hc : c ≠ ' ') (hlength : t.length = s.length + 2) :
  t ++ " " ++ op ++ " " ++ t' ≠ "(" ++ (s ++ " " ++ op ++ " " ++ s') ++ ")"
  := by
  intro heq
  have hchars := congrArg String.toList heq
  simp only [String.toList_append, hop] at hchars
  have hsplit : t.toList ++ (' ' :: (c :: cs) ++ ' ' :: t'.toList)
      = ('(' :: s.toList ++ [' ']) ++ (c :: cs ++ ' ' :: s'.toList ++ [')']) := by
    simpa using hchars
  have hsame : t.toList.length = ('(' :: s.toList ++ [' ']).length := by
    simp only [List.length_append, List.length_cons, List.length_nil, String.length_toList]
    omega
  obtain ⟨-, hrest⟩ := List.append_inj hsplit hsame
  exact hc (List.cons.inj hrest).1.symm

/-- A text that is widened and, if it has a sign in front that the other has not, by two
characters at least. -/
structure WidensFront (alike : Bool) (s t : String) : Prop extends Widens alike s t where
  sign : startsWithSign s = true → startsWithSign t = false → s.length + 2 ≤ t.length

/-- A text that is widened, but not by parentheses around a sign in front. -/
structure WidensBare (alike : Bool) (s t : String) : Prop extends WidensFront alike s t where
  bare : startsWithSign s = true → t ≠ "(" ++ s ++ ")"

variable {a b : Bool} {s t s' t' : String}

theorem widensBare_of_append {text : String} (htext : text ≠ "") (h : Widens a s t) :
  WidensBare a (text ++ s) (text ++ t)
  := by
  refine ⟨⟨h.before text, ?_⟩, ?_⟩
  · rw [startsWithSign_append htext, startsWithSign_append htext]
    intro hs ht
    rw [hs] at ht
    cases ht
  · rw [startsWithSign_append htext]
    intro hs heq
    have hsign := congrArg startsWithSign heq
    rw [startsWithSign_append htext, hs, startsWithSign_group] at hsign
    cases hsign

theorem WidensBare.refl (s : String) :
  WidensBare true s s
  := by
  refine ⟨⟨.refl s, ?_⟩, ?_⟩
  · intro hs ht
    rw [hs] at ht
    cases ht
  · exact fun _ => (group_ne le_rfl).symm

/-- Parentheses that only the second text gets. -/
theorem WidensFront.operand (h : WidensFront a s t) {p q : Bool} (hpq : p = true → q = true) :
  WidensFront (a && p == q) (if p = true then "(" ++ s ++ ")" else s)
    (if q = true then "(" ++ t ++ ")" else t)
  := by
  have hle := h.le
  cases p with
  | true =>
    rw [hpq rfl, if_pos rfl, if_pos rfl, beq_self_eq_true, Bool.and_true]
    refine ⟨(h.before "(").behind ")", ?_⟩
    intro hs
    rw [startsWithSign_group] at hs
    cases hs
  | false =>
    cases q with
    | false =>
      rw [beq_self_eq_true, Bool.and_true]
      exact h
    | true =>
      rw [if_neg Bool.false_ne_true, if_pos rfl]
      refine ⟨⟨?_, iff_of_false (group_ne hle) (by simp)⟩, ?_⟩
      · rw [length_group]
        omega
      · intro _ _
        rw [length_group]
        omega

theorem WidensFront.operator (h : WidensFront a s t) (h' : Widens b s' t') {op : String} {c : Char}
    {cs : List Char} (hop : op.toList = c :: cs) (hc : c ≠ ' ') :
  WidensBare (a && b) (s ++ " " ++ op ++ " " ++ s') (t ++ " " ++ op ++ " " ++ t')
  := by
  have hle := h'.le
  refine ⟨⟨(((h.behind " ").behind op).behind " ").append h', ?_⟩, ?_⟩
  · rw [startsWithSign_operator, startsWithSign_operator]
    intro hs ht
    have hsign := h.sign hs ht
    simp only [String.length_append]
    omega
  · rw [startsWithSign_operator]
    intro hs heq
    have hfront := congrArg startsWithSign heq
    rw [startsWithSign_operator, startsWithSign_group] at hfront
    have hsign := h.sign hs hfront
    have hlength := congrArg String.length heq
    rw [length_group] at hlength
    simp only [String.length_append] at hlength
    exact operator_ne_group hop hc (by omega) heq

theorem WidensBare.signCql (h : WidensBare a s t) {sign : String} (hsign : sign ≠ "") :
  WidensBare a (signCql sign s) (signCql sign t)
  := by
  have hprotected (s : String) : Expr.signCql sign s
      = sign ++ if startsWithSign s = true then "(" ++ s ++ ")" else s := by
    unfold Expr.signCql
    split
    · simp only [String.append_assoc]
    · rfl
  have hle := h.le
  have hdiffer (hs : startsWithSign s ≠ startsWithSign t) : a ≠ true := by
    intro ha
    apply hs
    rw [h.eq_iff.mpr ha]
  rw [hprotected, hprotected]
  apply widensBare_of_append hsign
  cases hs : startsWithSign s with
  | true =>
    cases ht : startsWithSign t with
    | true => exact (h.before "(").behind ")"
    | false =>
      have hlonger := h.sign hs ht
      have hne := h.bare hs
      rw [if_pos rfl, if_neg Bool.false_ne_true]
      constructor
      · rw [length_group]
        omega
      · exact iff_of_false hne (hdiffer (by simp [hs, ht]))
  | false =>
    cases ht : startsWithSign t with
    | false => exact h.toWidens
    | true =>
      rw [if_neg Bool.false_ne_true, if_pos rfl]
      constructor
      · rw [length_group]
        omega
      · exact iff_of_false (group_ne hle) (hdiffer (by simp [hs, ht]))

/-- Lists of texts that are widened one by one. -/
inductive WidensAll : Bool → List String → List String → Prop
  | nil : WidensAll true [] []
  | cons {a b : Bool} {s t : String} {ss ts : List String} (h : WidensBare a s t)
      (hs : WidensAll b ss ts) : WidensAll (a && b) (s :: ss) (t :: ts)

theorem WidensAll.enclosed {ss ts : List String} (h : WidensAll a ss ts) (text : String) :
  WidensBare a (text ++ enclosed "(" ")" ss) (text ++ enclosed "(" ")" ts)
  := by
  have hjoined : Widens a (String.intercalate ", " ss) (String.intercalate ", " ts) := by
    induction h with
    | nil => apply Widens.refl
    | cons h hs ih =>
      cases hs with
      | nil =>
        rw [String.intercalate_singleton, String.intercalate_singleton, Bool.and_true]
        exact h.toWidens
      | cons h' hs =>
        rw [String.intercalate_cons_cons, String.intercalate_cons_cons]
        apply (h.behind ", ").append ih
  have hne : text ++ "(" ≠ "" := by
    simp
  have hbare := widensBare_of_append hne (hjoined.behind ")")
  simpa only [Expr.enclosed, String.append_assoc] using hbare

/-! ### Normalized expressions -/

mutual

/-- An expression whose operators are spelled as they are looked up. What becomes of queries inside
of it is left open, since none is rendered. -/
def normalized (queries : Select → Select) : Expr → Expr
  | .missing => .missing
  | .of ⟨kind, operator, left, right, operand, table, column, value, name, args, items, distinct,
      query⟩ =>
    .of ⟨kind, Operator.normalize operator, left.normalized queries, right.normalized queries,
      operand.normalized queries, table, column, value, name, normalizedAll queries args,
      normalizedAll queries items, distinct, query.map queries⟩

/-- The expressions of a list with their operators spelled as they are looked up. -/
def normalizedAll (queries : Select → Select) : List Expr → List Expr
  | [] => []
  | e :: es => e.normalized queries :: normalizedAll queries es

end

/-- Whether an operand needs parentheses below an operator and gets none, because there are blanks
around its own operator. -/
def losesParentheses (operand : Expr) (parent : String) : Bool :=
  operand.kind? = some .binary && logicalWords.contains operand.operatorKey
    && operand.operatorKey ≠ parent && !operand.isLogical

mutual

/-- Whether no operand that is rendered loses its parentheses. -/
def keepsParentheses : Expr → Bool
  | .missing => true
  | .of ⟨kind, operator, left, right, operand, _, _, _, name, args, items, _, _⟩ =>
    match kind with
    | .binary => left.keepsParentheses && right.keepsParentheses
      && (Operator.normalize operator = "BETWEEN"
        || !left.losesParentheses (Operator.normalize operator)
          && !right.losesParentheses (Operator.normalize operator))
    | .unary => operand.keepsParentheses
    | .function | .aggregate => (Function.ofName name).nullary || keepParentheses args
    | .list => keepParentheses items
    | _ => true

/-- Whether no operand in the expressions of a list loses its parentheses. -/
def keepParentheses : List Expr → Bool
  | [] => true
  | e :: es => e.keepsParentheses && keepParentheses es

end

variable {queries : Select → Select}

theorem normalized_of (t : Term) :
  (Expr.of t).normalized queries
    = .of { t with
        operator := Operator.normalize t.operator
        left := t.left.normalized queries
        right := t.right.normalized queries
        operand := t.operand.normalized queries
        args := normalizedAll queries t.args
        items := normalizedAll queries t.items
        query := t.query.map queries }
  := by
  cases t
  rfl

theorem keepsParentheses_of (t : Term) :
  (Expr.of t).keepsParentheses
    = match t.kind with
      | .binary => t.left.keepsParentheses && t.right.keepsParentheses
        && (Operator.normalize t.operator = "BETWEEN"
          || !t.left.losesParentheses (Operator.normalize t.operator)
            && !t.right.losesParentheses (Operator.normalize t.operator))
      | .unary => t.operand.keepsParentheses
      | .function | .aggregate => (Function.ofName t.name).nullary || keepParentheses t.args
      | .list => keepParentheses t.items
      | _ => true
  := by
  cases t
  exact keepsParentheses.eq_def _

theorem operatorKey_normalized (e : Expr) :
  (e.normalized queries).operatorKey = e.operatorKey
  := by
  cases e with
  | missing => rfl
  | of t =>
    rw [normalized_of, operatorKey, operatorKey, Operator.normalize_normalize]

theorem kind?_normalized (e : Expr) :
  (e.normalized queries).kind? = e.kind?
  := by
  cases e with
  | missing => rfl
  | of t => rw [normalized_of, kind?, kind?]

theorem isPresent_normalized (e : Expr) :
  (e.normalized queries).isPresent = e.isPresent
  := by
  cases e with
  | missing => rfl
  | of t => rw [normalized_of, isPresent, isPresent]

theorem isLogical_normalized (e : Expr) :
  (e.normalized queries).isLogical
    = (decide (e.kind? = some .binary) && logicalWords.contains e.operatorKey)
  := by
  cases e with
  | missing => rfl
  | of t =>
    simp [normalized_of, isLogical, kind?, operatorKey, Operator.upper_normalize, logicalWords]

theorem isLogical_normalized_of_isLogical {e : Expr} (h : e.isLogical = true) :
  (e.normalized queries).isLogical = true
  := by
  rw [isLogical_normalized]
  cases e with
  | missing => cases h
  | of t =>
    simp only [isLogical, Bool.and_eq_true, Bool.or_eq_true, decide_eq_true_eq] at h
    have hmem : Text.upper t.operator ∈ logicalWords := by
      rw [logicalWords, List.mem_pair]
      exact h.2
    have hkey : (Expr.of t).operatorKey = Text.upper t.operator := normalize_of_logical hmem rfl
    rw [hkey]
    simpa [kind?, h.1] using hmem

/-- Operands below an operator, with parentheses around those that need them. -/
theorem WidensFront.operandCql {e : Expr} (h : WidensFront a s t) (parent : String) :
  WidensFront (a && !e.losesParentheses parent) (operandCql e parent s)
    (operandCql (e.normalized queries) parent t)
  := by
  have hkeeps : ((e.isLogical && decide (e.operatorKey ≠ parent))
      == ((e.normalized queries).isLogical && decide ((e.normalized queries).operatorKey ≠ parent)))
      = !e.losesParentheses parent := by
    rw [operatorKey_normalized, losesParentheses]
    cases hlogical : e.isLogical with
    | true => simp [isLogical_normalized_of_isLogical hlogical]
    | false =>
      rw [isLogical_normalized]
      simp
  rw [← hkeeps]
  apply h.operand
  rw [operatorKey_normalized]
  simp only [Bool.and_eq_true]
  rintro ⟨hlogical, hne⟩
  exact ⟨isLogical_normalized_of_isLogical hlogical, hne⟩

theorem WidensBare.operatorCql {op : String} {mapped : Operator}
    (hmapped : Operator.ofText op = .ok mapped) {left right : Expr} (grouped : Bool)
    (h : WidensBare a s t) (h' : WidensBare b s' t') :
  WidensBare (a && b && (!left.losesParentheses op && !right.losesParentheses op))
    (operandCql left op s ++ " " ++ mapped.cql ++ " "
      ++ if grouped = true then "(" ++ operandCql right op s' ++ ")" else operandCql right op s')
    (operandCql (left.normalized queries) op t ++ " " ++ mapped.cql ++ " "
      ++ if grouped = true then "(" ++ operandCql (right.normalized queries) op t' ++ ")"
        else operandCql (right.normalized queries) op t')
  := by
  have hheads : ∀ p ∈ Operator.table, p.2.cql.toList ≠ []
      ∧ p.2.cql.toList.head? ≠ some ' ' := by decide
  obtain ⟨hne, hhead⟩ := hheads _ (Operator.mem_table hmapped)
  obtain ⟨c, cs, hcs⟩ := List.exists_cons_of_ne_nil hne
  have hc : c ≠ ' ' := by
    rintro rfl
    rw [hcs] at hhead
    exact hhead rfl
  have hleft : WidensFront (a && !left.losesParentheses op) (operandCql left op s)
      (operandCql (left.normalized queries) op t) := h.operandCql op
  have hright : WidensFront (b && !right.losesParentheses op) (operandCql right op s')
      (operandCql (right.normalized queries) op t') := h'.operandCql op
  have halike : ((a && !left.losesParentheses op) && (b && !right.losesParentheses op))
      = (a && b && (!left.losesParentheses op && !right.losesParentheses op)) := by
    cases a <;> cases b <;> simp
  rw [← halike]
  apply hleft.operator _ hcs hc
  split
  · exact (hright.before "(").behind ")"
  · exact hright.toWidens

/-! ### Drafts of both -/

theorem matches_callCql {kind : TermKind} {name : String} {distinct : Bool} {args args' : List Expr}
    {d d' : Draft (List String)} (hargs : args'.isEmpty = args.isEmpty)
    (hempty : args.isEmpty = true → a = true) (h : Draft.Matches (WidensAll a) d d') :
  Draft.Matches (WidensBare ((Function.ofName name).nullary || a))
    (callCql kind name distinct args d) (callCql kind name distinct args' d')
  := by
  rw [callCql, callCql, hargs]
  generalize Function.ofName name = f
  dsimp only
  apply Draft.Matches.ite_bind
  cases hnullary : f.nullary with
  | true => exact .pure (.refl _)
  | false =>
    rw [Bool.false_or, if_neg Bool.false_ne_true, if_neg Bool.false_ne_true]
    apply (Draft.Matches.same _).bind
    rintro _ _ rfl
    split
    next hcount =>
      simp only [Bool.and_eq_true] at hcount
      rw [hempty hcount.1.1]
      exact .pure (.refl _)
    next =>
      apply h.bind
      intro ss ts hsts
      exact .pure (hsts.enclosed f.name)

theorem matches_unaryCql (operator : String) {d d' : Draft String}
    (h : Draft.Matches (WidensBare a) d d') :
  Draft.Matches (WidensBare a) (unaryCql operator d) (unaryCql (Operator.normalize operator) d')
  := by
  rw [unaryCql, unaryCql, Operator.normalize_normalize]
  split
  · apply h.bind
    exact fun s t hst => .pure (hst.signCql (by decide))
  · apply h.bind
    exact fun s t hst => .pure (hst.signCql (by decide))
  all_goals apply Draft.Matches.rejected

theorem matches_cqlAll {es : List Expr} (h : ∀ e ∈ es,
    Draft.Matches (WidensBare e.keepsParentheses) e.cql (e.normalized queries).cql) :
  Draft.Matches (WidensAll (keepParentheses es)) (cqlAll es) (cqlAll (normalizedAll queries es))
  := by
  induction es with
  | nil => exact .pure .nil
  | cons e es ih =>
    rw [List.forall_mem_cons] at h
    rw [cqlAll, normalizedAll, cqlAll, keepParentheses]
    apply h.1.bind
    intro s t hst
    apply (ih h.2).bind
    intro ss ts hsts
    exact .pure (.cons hst hsts)

/-- An operator of CQL, with the report of a disjunction. -/
theorem matches_operatorCql (queries : Select → Select) (left right : Expr) {op : String}
    {mapped : Operator} (hmapped : Operator.ofText op = .ok mapped)
    {l l' r r' : Draft String}
    (hl : Draft.Matches (WidensBare a) l l') (hr : Draft.Matches (WidensBare b) r r')
    (grouped : Bool) :
  Draft.Matches
    (WidensBare (a && b && (!left.losesParentheses op && !right.losesParentheses op)))
    (do
      warnIf (op = "OR") .orPredicate
      let s ← l
      let s' ← r
      return operandCql left op s ++ " " ++ mapped.cql ++ " "
        ++ if grouped = true then "(" ++ operandCql right op s' ++ ")" else operandCql right op s')
    (do
      warnIf (op = "OR") .orPredicate
      let t ← l'
      let t' ← r'
      return operandCql (left.normalized queries) op t ++ " " ++ mapped.cql ++ " "
        ++ if grouped = true then "(" ++ operandCql (right.normalized queries) op t' ++ ")"
          else operandCql (right.normalized queries) op t')
  := by
  apply (Draft.Matches.same _).bind
  rintro _ _ rfl
  apply hl.bind
  intro s t hst
  apply hr.bind
  intro s' t' hst'
  exact .pure (hst.operatorCql hmapped grouped hst')

theorem matches_binaryCql (operator : String) {left right : Expr} {l l' r r' : Draft String}
    {bounds bounds' : Option (Draft (String × String))}
    (hl : Draft.Matches (WidensBare a) l l') (hr : Draft.Matches (WidensBare b) r r')
    (hbounds : bounds = none ∧ bounds' = none ∨ ∃ c c' d d', bounds = some d ∧ bounds' = some d'
      ∧ b = (c && c')
      ∧ Draft.Matches (fun p q => WidensBare c p.1 q.1 ∧ WidensBare c' p.2 q.2) d d') :
  Draft.Matches (WidensBare (a && b && (Operator.normalize operator = "BETWEEN"
      || !left.losesParentheses (Operator.normalize operator)
        && !right.losesParentheses (Operator.normalize operator))))
    (binaryCql operator left right l r bounds)
    (binaryCql (Operator.normalize operator) (left.normalized queries)
      (right.normalized queries) l' r' bounds')
  := by
  simp only [binaryCql, Operator.normalize_normalize, isPresent_normalized, kind?_normalized]
  generalize Operator.normalize operator = op
  split
  · apply Draft.Matches.rejected
  · split
    next hbetween =>
      rcases hbounds with ⟨rfl, rfl⟩ | ⟨c, c', d, d', rfl, rfl, rfl, hd⟩
      · apply Draft.Matches.rejected
      · apply hl.bind
        intro s t hst
        apply hd.bind
        rintro ⟨lo, hi⟩ ⟨lo', hi'⟩ ⟨hlo, hhi⟩
        apply Draft.Matches.pure
        have hlow : WidensBare (a && c) (s ++ " " ++ ">=" ++ " " ++ lo)
            (t ++ " " ++ ">=" ++ " " ++ lo') := hst.operator hlo.toWidens rfl (by decide)
        have hhigh : WidensBare (a && c') (s ++ " " ++ "<=" ++ " " ++ hi)
            (t ++ " " ++ "<=" ++ " " ++ hi') := hst.operator hhi.toWidens rfl (by decide)
        have hand : "AND".toList = 'A' :: ['N', 'D'] := rfl
        have hboth := hlow.operator hhigh.toWidens hand (by decide)
        have halike : (a && c && (a && c')) = (a && (c && c') && (decide (op = "BETWEEN")
            || !left.losesParentheses op && !right.losesParentheses op)) := by
          rw [decide_eq_true hbetween, Bool.true_or, Bool.and_true]
          cases a <;> simp
        rw [halike] at hboth
        simpa [String.append_assoc] using hboth
    next hbetween =>
      rw [decide_eq_false hbetween, Bool.false_or]
      apply (Draft.matches_ofExcept _).bind
      rintro mapped _ ⟨rfl, hmapped⟩
      have hwritten := matches_operatorCql queries left right hmapped hl hr
        (op = "IN" && right.kind? ≠ some .list)
      cases mapped.caution with
      | none => exact hwritten
      | some text =>
        apply (Draft.Matches.same _).bind
        exact fun _ _ _ => hwritten

/-- The bounds that a right operand gives, if it gives any, are matched by those of the normalized
one. -/
theorem matches_boundsCql {e : Expr} (h : ∀ i ∈ e.items,
    Draft.Matches (WidensBare i.keepsParentheses) i.cql (i.normalized queries).cql) :
  boundsCql e = none ∧ boundsCql (e.normalized queries) = none
    ∨ ∃ c c' d d', boundsCql e = some d ∧ boundsCql (e.normalized queries) = some d'
      ∧ e.keepsParentheses = (c && c')
      ∧ Draft.Matches (fun p q => WidensBare c p.1 q.1 ∧ WidensBare c' p.2 q.2) d d'
  := by
  cases e with
  | missing => exact .inl ⟨rfl, rfl⟩
  | of t =>
    obtain ⟨kind, _, _, _, _, _, _, _, _, _, items, _, _⟩ := t
    rw [normalized, boundsCql, boundsCql]
    by_cases hkind : kind = .list
    · subst hkind
      rw [if_pos rfl, if_pos rfl, keepsParentheses]
      -- there are bounds where there are two items
      obtain _ | ⟨lo, _ | ⟨hi, _ | ⟨next, items⟩⟩⟩ := items
      · exact .inl ⟨rfl, rfl⟩
      · exact .inl ⟨rfl, rfl⟩
      · have hlo := h lo List.mem_cons_self
        have hhi := h hi (List.mem_cons_of_mem lo List.mem_cons_self)
        refine .inr ⟨lo.keepsParentheses, hi.keepsParentheses, _, _, rfl, rfl, ?_, ?_⟩
        · rw [keepParentheses, keepParentheses, keepParentheses, Bool.and_true]
        · apply hlo.bind
          intro s t hst
          apply hhi.bind
          intro s' t' hst'
          exact .pure ⟨hst, hst'⟩
      · exact .inl ⟨rfl, rfl⟩
    · rw [if_neg hkind, if_neg hkind]
      exact .inl ⟨rfl, rfl⟩

/-- An expression and its normalized form are both turned down, or both are rendered with the same
warnings. -/
theorem matches_normalized (e : Expr) :
  Draft.Matches (WidensBare e.keepsParentheses) e.cql (e.normalized queries).cql
  := by
  induction e using Expr.induction_on with
  | missing => exact .rejected _ _
  | of t hleft hright hbounds hoperand hargs hitems =>
    have hcall (kind : TermKind) :
        Draft.Matches
          (WidensBare ((Function.ofName t.name).nullary || keepParentheses t.args))
          (callCql kind t.name t.distinct t.args (cqlAll t.args))
          (callCql kind t.name t.distinct (normalizedAll queries t.args)
            (cqlAll (normalizedAll queries t.args))) := by
      apply matches_callCql _ _ (matches_cqlAll hargs)
      · cases t.args <;> rfl
      · cases t.args with
        | nil => exact fun _ => rfl
        | cons e es => exact fun h => nomatch h
    rw [normalized_of, cql_of, cql_of, keepsParentheses_of]
    cases t.kind with
    | function => exact hcall .function
    | aggregate => exact hcall .aggregate
    | list =>
      apply (matches_cqlAll hitems).bind
      intro ss ts hsts
      apply Draft.Matches.pure
      have hlist := hsts.enclosed ""
      rwa [String.empty_append, String.empty_append] at hlist
    | binary =>
      dsimp only
      exact matches_binaryCql t.operator hleft hright (matches_boundsCql hbounds)
    | unary =>
      dsimp only
      exact matches_unaryCql t.operator hoperand
    | subquery | other => exact .rejected _ _
    | column | star | text | number | bool | null | param => exact .refl WidensBare.refl _

/-- An expression is rendered exactly if its normalized form is, with the same warnings. The texts
are equal exactly if no operand loses its parentheses. -/
theorem cql_normalized (queries : Select → Select) (e : Expr) :
  (∀ text warnings, e.cql = .ok (text, warnings) →
      ∃ text', (e.normalized queries).cql = .ok (text', warnings)
        ∧ (text' = text ↔ e.keepsParentheses = true))
    ∧ ∀ text' warnings, (e.normalized queries).cql = .ok (text', warnings) →
      ∃ text, e.cql = .ok (text, warnings)
  := by
  have hmatches : Draft.Matches (WidensBare e.keepsParentheses) e.cql (e.normalized queries).cql :=
    matches_normalized e
  constructor
  · intro text warnings h
    obtain ⟨text', h', hwidens⟩ := hmatches.exists_right h
    exact ⟨text', h', hwidens.eq_iff⟩
  · intro text' warnings h
    obtain ⟨text, h', -⟩ := hmatches.exists_left h
    exact ⟨text, h'⟩

/-- A disjunction below a conjunction, with a blank behind its operator. -/
def blankDisjunction : Expr :=
  .binary "AND"
    (.binary "OR " (.eq (.column "a") (.number "1")) (.eq (.column "b") (.number "2")))
    (.eq (.column "c") (.number "3"))

/-- The disjunction loses its parentheses. -/
theorem cql_blankDisjunction :
  blankDisjunction.cql = .ok ("a = 1 OR b = 2 AND c = 3", [.orPredicate])
    ∧ (blankDisjunction.normalized id).cql = .ok ("(a = 1 OR b = 2) AND c = 3", [.orPredicate])
  := by
  constructor <;> rfl

end Expr

end CqlGateway

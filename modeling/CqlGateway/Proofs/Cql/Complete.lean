import CqlGateway.Proofs.Cql.Expression
import CqlGateway.Proofs.Statement.Assembly

/-!
# Complete expressions

Whatever JSON values describe, an expression that is read from them lacks nothing: every expression
in it is there and of a known kind, with the operands of its kind and with a value that fits it.
What a document leaves out is filled in. So the rendering of such an expression is never turned down
for want of a part: what holds of everything else that an expression tells or is turned down for
holds of the rendering of a complete one.

Main statement: `Expr.ofNode_complete`.
-/

namespace CqlGateway

/-! ### Rejections for want of a part -/

/-- Whether a rejection is for want of an expression, of an operand or of a known kind. -/
def Rejection.isOfGap : Rejection → Bool
  | .missingExpression | .missingOperand _ | .unknownTermKind _ => true
  | _ => false

/-- A draft that is not turned down for want of a part. -/
def Draft.LacksNothing {α : Type} (d : Draft α) : Prop :=
  ∀ r, d = .error r → r.isOfGap = false

/-! ### Expressions inside expressions -/

/-- A term of a known kind, with the operands that its kind asks for and a value that fits it. -/
def Term.IsComplete (t : Term) : Prop :=
  match t.kind with
  | .binary => t.left.isPresent = true ∧ t.right.isPresent = true
  | .unary => t.operand.isPresent = true
  | .text | .number => ∃ s, t.value = .text s
  | .bool => ∃ b, t.value = .bool b
  | .other _ => False
  | _ => True

theorem Term.IsComplete.known {t : Term} (h : t.IsComplete) :
  t.kind ∈ TermKind.known
  := by
  unfold IsComplete at h
  cases hkind : t.kind with
  | other name =>
    rw [hkind] at h
    cases h
  | _ => decide

namespace Expr

/-- The expressions inside an expression: those in the places of its operands, unless the place is
empty, and all that are listed as arguments or items. -/
inductive Reaches : Expr → Expr → Prop
  | self (e : Expr) : Reaches e e
  | left {t : Term} {x : Expr} (hpresent : t.left.isPresent = true) (h : Reaches t.left x) :
      Reaches (.of t) x
  | right {t : Term} {x : Expr} (hpresent : t.right.isPresent = true) (h : Reaches t.right x) :
      Reaches (.of t) x
  | operand {t : Term} {x : Expr} (hpresent : t.operand.isPresent = true)
      (h : Reaches t.operand x) : Reaches (.of t) x
  | arg {t : Term} {a x : Expr} (ha : a ∈ t.args) (h : Reaches a x) : Reaches (.of t) x
  | item {t : Term} {i x : Expr} (hi : i ∈ t.items) (h : Reaches i x) : Reaches (.of t) x

/-- Every expression inside an expression is there, and complete. -/
def IsComplete (e : Expr) : Prop :=
  ∀ x, e.Reaches x → ∃ t, x = .of t ∧ t.IsComplete

variable {e : Expr} {t : Term}

theorem isComplete_of (ht : t.IsComplete) (hleft : t.left.isPresent = true → t.left.IsComplete)
    (hright : t.right.isPresent = true → t.right.IsComplete)
    (hoperand : t.operand.isPresent = true → t.operand.IsComplete)
    (hargs : ∀ a ∈ t.args, a.IsComplete) (hitems : ∀ i ∈ t.items, i.IsComplete) :
  (Expr.of t).IsComplete
  := by
  intro x hx
  cases hx with
  | self => exact ⟨t, rfl, ht⟩
  | left hpresent h => exact hleft hpresent x h
  | right hpresent h => exact hright hpresent x h
  | operand hpresent h => exact hoperand hpresent x h
  | arg ha h => exact hargs _ ha x h
  | item hi h => exact hitems _ hi x h

theorem isComplete_of_noOperands (ht : t.IsComplete) (hleft : t.left.isPresent = false)
    (hright : t.right.isPresent = false) (hoperand : t.operand.isPresent = false)
    (hargs : ∀ a ∈ t.args, a.IsComplete) (hitems : ∀ i ∈ t.items, i.IsComplete) :
  (Expr.of t).IsComplete
  := by
  apply isComplete_of ht _ _ _ hargs hitems
  · simp [hleft]
  · simp [hright]
  · simp [hoperand]

theorem isComplete_of_noParts (ht : t.IsComplete) (hleft : t.left.isPresent = false)
    (hright : t.right.isPresent = false) (hoperand : t.operand.isPresent = false)
    (hargs : t.args = []) (hitems : t.items = []) :
  (Expr.of t).IsComplete
  := by
  apply isComplete_of_noOperands ht hleft hright hoperand
  · simp [hargs]
  · simp [hitems]

theorem IsComplete.isPresent (h : e.IsComplete) :
  e.isPresent = true
  := by
  obtain ⟨t, rfl, -⟩ := h e (.self e)
  rfl

theorem IsComplete.term (h : (Expr.of t).IsComplete) :
  t.IsComplete
  := by
  obtain ⟨_, ⟨⟩, ht⟩ := h _ (.self _)
  exact ht

theorem IsComplete.operands (h : (Expr.of t).IsComplete) (hkind : t.kind = .binary) :
  t.left.IsComplete ∧ t.right.IsComplete
  := by
  have ht := h.term
  unfold Term.IsComplete at ht
  rw [hkind] at ht
  exact ⟨fun x hx => h x (.left ht.1 hx), fun x hx => h x (.right ht.2 hx)⟩

theorem IsComplete.operand (h : (Expr.of t).IsComplete) (hkind : t.kind = .unary) :
  t.operand.IsComplete
  := by
  have ht := h.term
  unfold Term.IsComplete at ht
  rw [hkind] at ht
  exact fun x hx => h x (.operand ht hx)

theorem composed_isComplete :
  Composed IsComplete fun _ => True
  where
  text s := isComplete_of_noParts ⟨s, rfl⟩ rfl rfl rfl rfl rfl
  number literal := isComplete_of_noParts ⟨literal, rfl⟩ rfl rfl rfl rfl rfl
  bool b := isComplete_of_noParts ⟨b, rfl⟩ rfl rfl rfl rfl rfl
  null := isComplete_of_noParts trivial rfl rfl rfl rfl rfl
  star := isComplete_of_noParts trivial rfl rfl rfl rfl rfl
  param name := isComplete_of_noParts trivial rfl rfl rfl rfl rfl
  column table column := isComplete_of_noParts trivial rfl rfl rfl rfl rfl
  binary operator left right hleft hright :=
    isComplete_of ⟨hleft.isPresent, hright.isPresent⟩ (fun _ => hleft)
      (fun _ => hright) (by rintro ⟨⟩) (List.forall_mem_nil _) (List.forall_mem_nil _)
  unary operator operand hoperand :=
    isComplete_of hoperand.isPresent (by rintro ⟨⟩) (by rintro ⟨⟩)
      (fun _ => hoperand) (List.forall_mem_nil _) (List.forall_mem_nil _)
  call := by
    rintro kind (rfl | rfl) name args hargs distinct
    · exact isComplete_of_noOperands trivial rfl rfl rfl hargs (List.forall_mem_nil _)
    · exact isComplete_of_noOperands trivial rfl rfl rfl hargs (List.forall_mem_nil _)
  list hitems :=
    isComplete_of_noOperands trivial rfl rfl rfl (List.forall_mem_nil _) hitems
  subquery _ := isComplete_of_noParts trivial rfl rfl rfl rfl rfl
  items := by
    intro e he hlist i hi x hx
    cases e with
    | missing => cases hlist
    | of t => exact he x (.item hi hx)

end Expr

/-! ### Renderings of complete expressions -/

/-- The warnings of expressions. -/
def Warning.IsOfExpression : Warning → Prop
  | .approximated text => text = Cql.Operator.likeCaution
  | .orPredicate | .unmappedAggregate _ | .unmappedFunction _ | .distinctArgument _ => True
  | _ => False

/-- The only operator that is approximated is `LIKE`. -/
theorem Cql.Operator.caution_eq {op text : String} {mapped : Operator}
    (h : ofText op = .ok mapped) (hcaution : mapped.caution = some text) :
  text = likeCaution
  := by
  have htable : ∀ p ∈ table, ∀ text, p.2.caution = some text → likeCaution = text := by
    simp [table]
  symm
  apply htable _ (mem_table h) text hcaution

theorem Cql.Operator.isOfGap_ofText {operator : String} {r : Rejection}
    (h : ofText operator = .error r) :
  r.isOfGap = false
  := by
  unfold ofText at h
  split at h
  · cases h
  · split at h <;> cases h <;> rfl

/-- A property that is closed under drafting and holds of all that an expression tells or is turned
down for, but for the want of a part. -/
structure Expr.Allows (P : ∀ α : Type, Draft α → Prop) : Prop extends Draft.Closed P where
  warn {w : Warning} (h : w.IsOfExpression) : P Unit (Draft.warn w)
  reject {α : Type} {r : Rejection} (h : r.isOfGap = false) : P α (Draft.reject r)

namespace Expr.Allows

variable {P : ∀ α : Type, Draft α → Prop} (hP : Allows P)

include hP

theorem columnCql (column : String) :
  P String (columnCql column)
  := by
  unfold Expr.columnCql
  split
  · apply hP.pure
  · split
    · exact hP.reject rfl
    · apply hP.pure

theorem callCql (kind : TermKind) (name : String) (distinct : Bool) (args : List Expr)
    {argsDraft : Draft (List String)} (h : P (List String) argsDraft) :
  P String (callCql kind name distinct args argsDraft)
  := by
  have hname : Warning.IsOfExpression (if kind = .aggregate then
      .unmappedAggregate (Text.upper name) else .unmappedFunction (Text.upper name)) := by
    split <;> exact True.intro
  unfold Expr.callCql
  dsimp only
  split
  on_goal 1 =>
    apply hP.bind (hP.warn hname)
    intro _ _
  all_goals
    split
    · apply hP.pure
    · apply hP.bind (hP.warnIf _ (hP.warn (by exact True.intro)))
      intro _ _
      split
      · apply hP.pure
      · apply hP.bind_pure _ h

theorem operands {leftDraft rightDraft : Draft String} (hleft : P String leftDraft)
    (hright : P String rightDraft) (condition : Bool) (join : String → String → String) :
  P String do
    Draft.warnIf condition .orPredicate
    return join (← leftDraft) (← rightDraft)
  := by
  apply hP.bind (hP.warnIf _ (hP.warn (by exact True.intro)))
  intro _ _
  apply hP.bind hleft
  intro _ _
  apply hP.bind_pure _ hright

theorem binaryCql {operator : String} {left right : Expr} {leftDraft rightDraft : Draft String}
    {bounds : Option (Draft (String × String))}
    (hgap : (∀ α r, P α (Draft.reject r)) ∨ left.isPresent = true ∧ right.isPresent = true)
    (hleft : P String leftDraft) (hright : P String rightDraft)
    (hbounds : ∀ d, bounds = some d → P (String × String) d) :
  P String (binaryCql operator left right leftDraft rightDraft bounds)
  := by
  unfold Expr.binaryCql
  dsimp only
  split
  next hmissing =>
    rcases hgap with hreject | ⟨hl, hr⟩
    · apply hreject
    · rw [hl, hr] at hmissing
      cases hmissing
  next =>
    split
    · split
      · exact hP.reject rfl
      · apply hP.bind hleft
        intro _ _
        apply hP.bind_pure _ (hbounds _ rfl)
    · apply hP.bind
      · cases hmapped : Cql.Operator.ofText (Cql.Operator.normalize operator) with
        | error r => exact hP.reject (Cql.Operator.isOfGap_ofText hmapped)
        | ok mapped => apply hP.pure
      · intro mapped hmapped
        split
        next text hcaution =>
          apply hP.bind (hP.warn _)
          · intro _ _
            apply hP.operands hleft hright
          · apply Cql.Operator.caution_eq ((Draft.yields_ofExcept _ _).mp hmapped) hcaution
        next => apply hP.operands hleft hright

theorem unaryCql (operator : String) {operandDraft : Draft String}
    (h : P String operandDraft) :
  P String (unaryCql operator operandDraft)
  := by
  unfold Expr.unaryCql
  split
  · apply hP.bind_pure _ h
  · apply hP.bind_pure _ h
  all_goals exact hP.reject rfl

theorem cqlAll {es : List Expr} (h : ∀ e ∈ es, P String e.cql) :
  P (List String) (cqlAll es)
  := by
  rw [cqlAll_eq_each]
  apply hP.each h

/-- The property holds of the rendering of an expression that is complete, and of that of any other
one if it holds of all rejections. -/
theorem cql {e : Expr} (h : (∀ α r, P α (Draft.reject r)) ∨ e.IsComplete) :
  P String e.cql
  := by
  induction e using Expr.induction_on with
  | missing =>
    rcases h with hreject | h
    · apply hreject
    · cases h.isPresent
  | of t hleft hright hbounds hoperand hargs hitems =>
    have hargs := fun a ha => hargs a ha (h.imp_right fun h x hx => h x (.arg ha hx))
    have hitems := fun i hi => hitems i hi (h.imp_right fun h x hx => h x (.item hi hx))
    rw [cql_of]
    cases hkind : t.kind with
    | column => apply hP.columnCql
    | function | aggregate => apply hP.callCql _ _ _ _ (hP.cqlAll hargs)
    | list => apply hP.bind_pure _ (hP.cqlAll hitems)
    | binary =>
      have hops := h.imp_right fun h => h.operands hkind
      apply hP.binaryCql (hops.imp_right fun h => ⟨h.1.isPresent, h.2.isPresent⟩)
        (hleft (hops.imp_right And.left)) (hright (hops.imp_right And.right))
      intro d hd
      obtain ⟨lo, hi, hlist, heq, rfl⟩ := boundsCql_eq_some hd
      have hitem := hops.imp_right fun h => composed_isComplete.items h.2 hlist
      rw [heq] at hbounds hitem
      apply hP.bind (hbounds lo (by simp) (hitem.imp_right fun h => h lo (by simp)))
      intro _ _
      apply hP.bind_pure _ (hbounds hi (by simp) (hitem.imp_right fun h => h hi (by simp)))
    | unary => apply hP.unaryCql _ (hoperand (h.imp_right fun h => h.operand hkind))
    | subquery => exact hP.reject rfl
    | other name =>
      rcases h with hreject | h
      · apply hreject
      · have hknown := h.term.known
        rw [hkind] at hknown
        simp [TermKind.known] at hknown
    | star | text | number | bool | null | param => apply hP.pure

end Expr.Allows

theorem Draft.allows_lacksNothing :
  Expr.Allows fun _ d => d.LacksNothing
  where
  pure a := by rintro r ⟨⟩
  bind hd hf := by
    intro r hr
    rcases bind_eq_error.mp hr with hr | ⟨a, ha, hr⟩
    · exact hd r hr
    · exact hf a ha r hr
  warn _ := by rintro r ⟨⟩
  reject h := by
    rintro r ⟨⟩
    exact h

namespace Expr

variable {e : Expr}

/-- An expression that is read from JSON values is there with all that is inside it, of known kinds,
with operands and fitting values; and its rendering is not turned down for want of any of them. -/
theorem ofNode_complete {n : Node} (hn : n.IsJson) (he : ofNode n = .ok e) :
  (∀ x, e.Reaches x → ∃ t, x = .of t ∧ t.kind ∈ TermKind.known ∧ t.IsComplete)
    ∧ ∀ r, e.cql = .error r → r ≠ .missingExpression ∧ (∀ operator, r ≠ .missingOperand operator)
      ∧ ∀ kind, r ≠ .unknownTermKind kind
  := by
  have hcomplete : e.IsComplete := (hn.settled.gives composed_isComplete).expr e he
  constructor
  · intro x hx
    obtain ⟨t, rfl, ht⟩ := hcomplete x hx
    exact ⟨t, rfl, ht.known, ht⟩
  intro r hr
  have hgap := Draft.allows_lacksNothing.cql (.inr hcomplete) r hr
  and_intros
  · rintro rfl
    cases hgap
  · rintro operator rfl
    cases hgap
  · rintro kind rfl
    cases hgap

/-- A comparison of a call with nothing. -/
def halfComparison : Json :=
  .object [("type", .text "binary_expr"), ("operator", .text "="),
    ("left", .object [("type", .text "function"), ("name", .text "f"),
      ("args", .object [("expr", .array [.bool true, .null])])])]

theorem ofNode_complete_halfComparison :
  ∃ e, ofNode (.ofJson halfComparison) = .ok e
    ∧ ∀ x, e.Reaches x → ∃ t, x = .of t ∧ t.kind ∈ TermKind.known ∧ t.IsComplete
  := by
  have hread : ofNode (.ofJson halfComparison) = .ok (.binary "=" (.of { Term.blank .function with
      name := "f", args := [.list [.bool true, .null]] }) .null) := by
    rfl
  exact ⟨_, hread, (ofNode_complete (Node.isJson_ofJson halfComparison) hread).1⟩

end Expr

end CqlGateway

import CqlGateway.Statement.Tree

/-!
# Induction over expressions

An expression is a term, and the expressions below it are its operands, its arguments and its
items. What holds of a term as soon as it holds of these holds of every expression. The items of
the right operand are named apart: two of them can be the bounds of a comparison.
-/

namespace CqlGateway

namespace Expr

/-- A property that a term takes over from the expressions below it. -/
structure Inherited (P : Expr → Prop) : Prop where
  missing : P .missing
  of (t : Term) : P t.left → P t.right → (∀ e ∈ t.right.items, P e) → P t.operand →
    (∀ e ∈ t.args, P e) → (∀ e ∈ t.items, P e) → P (.of t)

variable {P : Expr → Prop}

mutual

theorem Inherited.with_items (h : Inherited P) :
    ∀ e : Expr, P e ∧ ∀ i ∈ e.items, P i
  | .missing => ⟨h.missing, fun _ hi => nomatch hi⟩
  | .of ⟨_, _, left, right, operand, _, _, _, _, args, items, _, _⟩ => by
    have hright := with_items h right
    have hitems := of_all h items
    refine ⟨?_, hitems⟩
    apply h.of
    · apply (with_items h left).1
    · apply hright.1
    · apply hright.2
    · apply (with_items h operand).1
    · apply of_all h args
    · apply hitems

theorem Inherited.of_all (h : Inherited P) :
    ∀ es : List Expr, ∀ e ∈ es, P e
  | [] => fun _ he => nomatch he
  | d :: ds => by
    have hd := (with_items h d).1
    have hds := of_all h ds
    intro e he
    rcases List.mem_cons.mp he with rfl | he
    · apply hd
    · apply hds e he

end

/-- What holds of a missing expression, and of every term if it holds below the term, holds of
every expression. -/
@[elab_as_elim]
theorem induction_on
    (e : Expr) (missing : P .missing)
    (of : ∀ t : Term, P t.left → P t.right → (∀ i ∈ t.right.items, P i) → P t.operand →
      (∀ a ∈ t.args, P a) → (∀ i ∈ t.items, P i) → P (.of t)) :
  P e
  := ((Inherited.mk missing of).with_items e).1

end Expr

end CqlGateway

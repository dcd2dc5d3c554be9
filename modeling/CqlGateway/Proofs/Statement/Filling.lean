import CqlGateway.Proofs.Statement.Reading
import Mathlib.Data.List.Forall2

/-!
# Records filled from their own documents

The document of a record leaves out the members that are blank. Reading it fills the slots one after
another, and a slot whose member is left out stays blank. So a record is read back if each slot is
read back from its own member.
-/

namespace CqlGateway

namespace Node

/-! ### Members that are left out when they are blank -/

/-- The value of a member that is left out when the text is empty. -/
def presentText (s : String) : Option Node :=
  if s = "" then none else some (.text s)

/-- The value of a member that is left out unless it holds. -/
def presentFlag (b : Bool) : Option Node :=
  if b then some (.bool true) else none

/-- The value of a member that is left out when there are no items. -/
def presentList (ns : List Node) : Option Node :=
  if ns.isEmpty then none else some (.list ns)

/-- The value of a member that is left out when the node is absent. -/
def presentNode (n : Node) : Option Node :=
  if n.isNull then none else some n

end Node

open Node

namespace Reading

variable {α β : Type} {fill : α → String → Node → Reading α} {es : List (String × Option Node)}

/-! ### Slots -/

/-- A member gives a slot its value: reading the member gives the value, and if the member is left
out, the value is the blank one. -/
def Offers (r : Node → Reading β) (blank : β) : Option Node → β → Prop
  | none, v => v = blank
  | some n, v => (r n).Gives v

theorem offers_text (old s : String) :
  Offers (text old) "" (presentText s) s
  := by
  unfold presentText
  split
  next h => exact h
  next => exact gives_pure s

theorem offers_flag (old b : Bool) :
  Offers (flag old) false (presentFlag b) b
  := by
  cases b with
  | false => exact rfl
  | true => exact gives_pure true

theorem offers_raw {n : Node} (h : n.IsPlain) :
  Offers raw .null (presentNode n) n
  := by
  unfold presentNode
  split
  next hnull =>
    cases n with
    | null => exact rfl
    | _ => cases hnull
  next =>
    have hraw : (raw n).Gives n.canonical := gives_pure n.canonical
    rwa [h.canonical_eq] at hraw

theorem gives_items {fill : α → Node → Reading α} {blank : α} {ns : List Node} {as : List α}
    (h : List.Forall₂ (fun n a => (fill blank n).Gives a) ns as) :
  (items fill blank ns).Gives as
  := by
  induction h with
  | nil => exact gives_pure []
  | cons hn _ ih => exact hn.bind (ih.bind (gives_pure _))

theorem offers_list {fill : α → Node → Reading α} {blank : α} {ns : List Node} {as : List α}
    (h : List.Forall₂ (fun n a => (fill blank n).Gives a) ns as) :
  Offers (list fill blank) [] (presentList ns) as
  := by
  unfold presentList
  split
  next hempty =>
    rw [List.isEmpty_iff] at hempty
    subst hempty
    cases h
    exact rfl
  next => exact gives_items h

/-! ### Records -/

/-- Members fill a record, slot by slot. -/
inductive Fills (fill : α → String → Node → Reading α) : α → List (String × Option Node) → α → Prop
  | nil (a : α) : Fills fill a [] a
  | skip {a b : α} {name : String} {es : List (String × Option Node)} (h : Fills fill a es b) :
      Fills fill a ((name, none) :: es) b
  | cons {a b c : α} {name : String} {n : Node} {es : List (String × Option Node)}
      (hn : (fill a name n).Gives b) (h : Fills fill b es c) : Fills fill a ((name, some n) :: es) c

/-- A slot that is read on its own is filled with what its member gives. -/
theorem Fills.slot {a c : α} {name : String} {o : Option Node} {r : Node → Reading β} {put : β → α}
    {blank v : β} (hfill : ∀ n, fill a name n = r n >>= fun v => pure (put v))
    (ho : Offers r blank o v) (hblank : put blank = a) (h : Fills fill (put v) es c) :
  Fills fill a ((name, o) :: es) c
  := by
  cases o with
  | none =>
    apply Fills.skip
    rw [← hblank]
    exact ho ▸ h
  | some n =>
    refine Fills.cons ?_ h
    rw [hfill]
    exact ho.bind (gives_pure (put v))

theorem Fills.gives {a b : α} (h : Fills fill a es b)
    (hfold : ∀ name ∈ es.map Prod.fst, Text.fold name = name) :
  (record fill a (.object (given es))).Gives b
  := by
  rw [record]
  induction h with
  | nil a => exact gives_pure a
  | skip _ ih =>
    rw [List.map_cons, List.forall_mem_cons] at hfold
    exact ih hfold.2
  | cons hn _ ih =>
    rw [List.map_cons, List.forall_mem_cons] at hfold
    rw [given_cons_some, List.foldlM_cons]
    dsimp only
    rw [hfold.1]
    exact hn.bind (ih hfold.2)

end Reading

end CqlGateway

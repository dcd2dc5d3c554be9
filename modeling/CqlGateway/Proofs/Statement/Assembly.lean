import CqlGateway.Proofs.Statement.Reading

/-!
# Expressions put together from documents

An object gives an expression by its type and its members, and the expressions among its members are
read in the same way. So a property that a term of each kind takes over from the expressions below
it, and a subquery from its query, holds of whatever is read from JSON values.
-/

namespace CqlGateway

variable {n : Node} {e : Expr} {es : List Expr}

/-! ### Nodes without expressions -/

/-- A node that holds JSON values only, with its numbers in any form. -/
inductive Node.IsJson : Node → Prop
  | null : IsJson .null
  | bool (b : Bool) : IsJson (.bool b)
  | text (s : String) : IsJson (.text s)
  | number (literal : String) : IsJson (.number literal)
  | int (k : Int) : IsJson (.int k)
  | long (k : Int) : IsJson (.long k)
  | double (x : Binary64) : IsJson (.double x)
  | list {items : List Node} (h : ∀ n ∈ items, IsJson n) : IsJson (.list items)
  | object {members : List (String × Node)} (h : ∀ m ∈ members, IsJson m.2) :
      IsJson (.object members)

namespace Node

theorem IsDocument.isJson (h : n.IsDocument) :
  n.IsJson
  := by
  induction h with
  | null => exact .null
  | bool b => exact .bool b
  | text s => exact .text s
  | number => exact .number _
  | list _ ih => exact .list ih
  | object _ ih => exact .object ih

mutual

theorem isJson_ofJson :
    ∀ j : Json, (ofJson j).IsJson
  | .null => .null
  | .bool b => .bool b
  | .number literal => .number literal
  | .text s => .text s
  | .array items => .list (isJson_ofItems items)
  | .object members => .object (isJson_ofMembers members)

theorem isJson_ofItems :
    ∀ items : List Json, ∀ n ∈ ofItems items, n.IsJson
  | [] => List.forall_mem_nil _
  | v :: vs => List.forall_mem_cons.mpr ⟨isJson_ofJson v, isJson_ofItems vs⟩

theorem isJson_ofMembers :
    ∀ members : List (String × Json), ∀ m ∈ ofMembers members, m.2.IsJson
  | [] => List.forall_mem_nil _
  | (_, v) :: ms => List.forall_mem_cons.mpr ⟨isJson_ofJson v, isJson_ofMembers ms⟩

end

/-- Whether a node holds JSON values only does not depend on how deep it is. -/
theorem isLayered_json :
  IsLayered (fun _ _ : Unit => True) fun _ n => n.IsJson
  where
  unique _ _ := rfl
  null _ := .null
  list := by
    intro _ ns
    constructor
    · intro h
      cases h with
      | list h => exact ⟨(), trivial, h⟩
    · exact fun ⟨_, _, h⟩ => .list h
  object := by
    intro _ ms
    constructor
    · intro h
      cases h with
      | object h => exact ⟨(), trivial, h⟩
    · exact fun ⟨_, _, h⟩ => .object h

theorem isJson_plain (n : Node) :
  n.plain.IsJson
  := by
  unfold plain
  split
  · apply isJson_ofJson
  · exact .bool false

theorem IsJson.settled (h : n.IsJson) :
  n.settled.IsJson
  := by
  apply isLayered_json.accumulate
  exact isLayered_json.withCanonicalQueries (fun n _ => n.isJson_plain) h

end Node

/-! ### Properties that are taken over -/

/-- A property of expressions that a term takes over from the expressions below it, and a subquery
from its query. -/
structure Expr.Composed (P : Expr → Prop) (Q : Option Select → Prop) : Prop where
  text (s : String) : P (.text s)
  number (literal : String) : P (.number literal)
  bool (b : Bool) : P (.bool b)
  null : P .null
  star : P .star
  param (name : String) : P (.of { Term.blank .param with name := name })
  column (table column : String) :
    P (.of { Term.blank .column with table := table, column := column })
  binary (operator : String) {left right : Expr} (hleft : P left) (hright : P right) :
    P (.binary operator left right)
  unary (operator : String) {operand : Expr} (hoperand : P operand) : P (.unary operator operand)
  call {kind : TermKind} (hkind : kind = .function ∨ kind = .aggregate) (name : String)
    {args : List Expr} (hargs : ∀ e ∈ args, P e) (distinct : Bool) :
    P (.of { Term.blank kind with name := name, args := args, distinct := distinct })
  list {items : List Expr} (hitems : ∀ e ∈ items, P e) : P (.list items)
  subquery {q? : Option Select} (hq : Q q?) : P (.of { Term.blank .subquery with query := q? })
  items {e : Expr} (he : P e) (hlist : e.kind? = some .list) : ∀ a ∈ e.items, P a

/-- Whatever expressions a node is read as, they have a property. -/
structure Node.Gives (P : Expr → Prop) (n : Node) : Prop where
  expr : ∀ e, Expr.read n = .ok e → P e
  items : ∀ es, Expr.readList n = .ok es → ∀ e ∈ es, P e
  wrapped : ∀ e, Expr.readWrapped? n = some (.ok e) → P e

theorem exists_of_bind_eq_ok {ε α β : Type} {x : Except ε α} {f : α → Except ε β} {b : β}
    (h : x >>= f = .ok b) :
  ∃ a, x = .ok a ∧ f a = .ok b
  := by
  cases x with
  | error e => cases h
  | ok a => exact ⟨a, rfl, h⟩

theorem eq_some_ok_or_of_getD {ε α : Type} {r? : Option (Except ε α)} {d : Except ε α} {a : α}
    (h : r?.getD d = .ok a) :
  r? = some (.ok a) ∨ d = .ok a
  := by
  cases r? with
  | none => exact .inr h
  | some r => exact .inl (congrArg some h)

section

variable {P : Expr → Prop} {ms : List (String × Node)} (h : ∀ m ∈ ms, m.2.Gives P)

include h

theorem Expr.of_readMember? {name : String} (he : Expr.readMember? name ms = some (.ok e)) :
  P e
  := by
  rw [Expr.readMember?_eq, Option.map_eq_some_iff] at he
  obtain ⟨n, hn, he⟩ := he
  exact (h _ (Node.mem_of_lookup? hn)).expr e he

theorem Expr.of_readListMember? {name : String}
    (hes : Expr.readListMember? name ms = some (.ok es)) :
  ∀ e ∈ es, P e
  := by
  rw [Expr.readListMember?_eq, Option.map_eq_some_iff] at hes
  obtain ⟨n, hn, hes⟩ := hes
  exact (h _ (Node.mem_of_lookup? hn)).items es hes

end

theorem Expr.of_readAll {P : Expr → Prop} {ns : List Node} (h : ∀ n ∈ ns, n.Gives P)
    (hes : Expr.readAll ns = .ok es) :
  ∀ e ∈ es, P e
  := by
  induction ns generalizing es with
  | nil =>
    cases hes
    exact List.forall_mem_nil _
  | cons n ns ih =>
    rw [List.forall_mem_cons] at h
    rw [Expr.readAll] at hes
    obtain ⟨e, he, hes⟩ := exists_of_bind_eq_ok hes
    obtain ⟨rest, hrest, hes⟩ := exists_of_bind_eq_ok hes
    cases hes
    exact List.forall_mem_cons.mpr ⟨h.1.expr e he, ih h.2 hrest⟩

namespace Expr.Composed

variable {P : Expr → Prop} {Q : Option Select → Prop} (hP : Composed P Q)

include hP

theorem asArgs (he : P e) :
  ∀ a ∈ e.asArgs, P a
  := by
  unfold Expr.asArgs
  split
  next hlist => exact hP.items he hlist
  next => simpa using he

theorem argsOf (hn : n.Gives P) {args : List Expr} {distinct : Bool}
    (hargs : Expr.argsOf n (Expr.read n) (Expr.readList n) (Expr.readWrapped? n)
      = .ok (args, distinct)) :
  ∀ e ∈ args, P e
  := by
  have hitems {es : List Expr} (hes : Expr.readList n = .ok es)
      (hpair : (.ok (es, false) : Except Rejection _) = .ok (args, distinct)) :
      ∀ e ∈ args, P e := by
    cases hpair
    exact hn.items _ hes
  unfold Expr.argsOf at hargs
  split at hargs
  · cases hargs
    exact List.forall_mem_nil _
  · obtain ⟨es, hes, hpair⟩ := exists_of_bind_eq_ok hargs
    exact hitems hes hpair
  · obtain ⟨es, hes, hpair⟩ := exists_of_bind_eq_ok hargs
    exact hitems hes hpair
  · split at hargs
    next inner hinner =>
      obtain ⟨e, rfl, hpair⟩ := exists_of_bind_eq_ok hargs
      cases hpair
      simpa using hn.wrapped e hinner
    next =>
      obtain ⟨e, he, hpair⟩ := exists_of_bind_eq_ok hargs
      cases hpair
      exact hP.asArgs (hn.expr e he)
  · obtain ⟨e, he, hpair⟩ := exists_of_bind_eq_ok hargs
    cases hpair
    simpa using hn.expr e he

theorem assemble {members : List (String × Node)} {parts : Parts}
    (hexpr : ∀ name e, parts.expr? name = some (.ok e) → P e)
    (hitems : ∀ name es, parts.items? name = some (.ok es) → ∀ e ∈ es, P e)
    (hargs : ∀ args distinct, parts.args = .ok (args, distinct) → ∀ e ∈ args, P e)
    (hquery : Q parts.query) (he : parts.assemble members = .ok e) :
  P e
  := by
  have hmember {name : String} {e : Expr} (he : parts.expr name = .ok e) : P e := by
    rcases eq_some_ok_or_of_getD he with he | he
    · exact hexpr name e he
    · cases he
      exact hP.null
  have hcall {kind : TermKind} (hkind : kind = .function ∨ kind = .aggregate)
      (he : Parts.call kind members parts = .ok e) : P e := by
    obtain ⟨⟨args, distinct⟩, hread, he⟩ := exists_of_bind_eq_ok he
    cases he
    exact hP.call hkind _ (hargs args distinct hread) _
  unfold Parts.assemble at he
  split at he
  · obtain ⟨left, hleft, he⟩ := exists_of_bind_eq_ok he
    obtain ⟨right, hright, he⟩ := exists_of_bind_eq_ok he
    cases he
    exact hP.binary _ (hmember hleft) (hmember hright)
  · obtain ⟨operand, hoperand, he⟩ := exists_of_bind_eq_ok he
    cases he
    apply hP.unary
    rcases eq_some_ok_or_of_getD hoperand with hoperand | hoperand
    · exact hexpr _ operand hoperand
    · exact hmember hoperand
  · split at he <;> cases he
    · exact hP.star
    · exact hP.column _ _
  iterate 5
    · cases he
      exact hP.text _
  · cases he
    exact hP.number _
  iterate 2
    · cases he
      exact hP.bool _
  · cases he
    exact hP.null
  · cases he
    exact hP.star
  · cases he
    exact hP.param _
  · exact hcall (.inl rfl) he
  · exact hcall (.inr rfl) he
  · obtain ⟨items, hread, he⟩ := exists_of_bind_eq_ok he
    cases he
    apply hP.list
    rcases eq_some_ok_or_of_getD hread with hread | hread
    · exact hitems _ items hread
    · rcases eq_some_ok_or_of_getD hread with hread | hread
      · exact hitems _ items hread
      · cases hread
        exact List.forall_mem_nil _
  iterate 2
    · cases he
      exact hP.subquery hquery
  · split at he
    · cases he
      exact hP.column _ _
    · rcases eq_some_ok_or_of_getD he with he | he
      · exact hexpr _ e he
      · cases he
  · cases he

theorem readArgs {ms : List (String × Node)} (h : ∀ m ∈ ms, m.2.Gives P) {args : List Expr}
    {distinct : Bool} (hargs : Expr.readArgs ms = .ok (args, distinct)) :
  ∀ e ∈ args, P e
  := by
  rw [Expr.readArgs_eq] at hargs
  cases hfound : Node.lookup? "args" ms with
  | none =>
    rw [hfound] at hargs
    cases hargs
    exact List.forall_mem_nil _
  | some n =>
    rw [hfound, Option.map_some, Option.getD_some] at hargs
    exact hP.argsOf (h _ (Node.mem_of_lookup? hfound)) hargs

/-- What a node gives has the property if what its items and its members give has it. -/
theorem gives (hn : n.IsJson) (hitems : ∀ ns, n = .list ns → ∀ m ∈ ns, m.Gives P)
    (hmembers : ∀ ms, n = .object ms → ∀ m ∈ ms, m.2.Gives P)
    (hquery : ∀ ms, n = .object ms → Q (Select.readMember? ms)) :
  n.Gives P
  where
  expr := by
    intro e he
    cases hn with
    | null =>
      cases he
      exact hP.null
    | bool b =>
      cases he
      exact hP.bool b
    | text s =>
      cases he
      exact hP.text s
    | number literal | int k | long k | double x =>
      cases he
      apply hP.number
    | @list ns _ =>
      rw [Expr.read] at he
      cases hread : Expr.readAll ns with
      | error reason =>
        rw [hread] at he
        cases he
      | ok es =>
        rw [hread] at he
        cases he
        exact hP.list (of_readAll (hitems ns rfl) hread)
    | @object ms _ =>
      rw [read_object] at he
      apply hP.assemble _ _ _ (hquery ms rfl) he
      · exact fun name e => of_readMember? (hmembers ms rfl)
      · exact fun name es => of_readListMember? (hmembers ms rfl)
      · exact fun args distinct => hP.readArgs (hmembers ms rfl)
  items := by
    intro es hes
    cases hn with
    | list => exact of_readAll (hitems _ rfl) hes
    | _ =>
      cases hes
      exact List.forall_mem_nil _
  wrapped := by
    intro e he
    cases hn with
    | @object ms _ =>
      rw [Expr.readWrapped?] at he
      split at he
      · exact of_readMember? (hmembers ms rfl) he
      · cases he
    | _ => cases he

end Expr.Composed

/-- A property that terms take over holds of whatever JSON values give, if it asks nothing of the
queries of subqueries. -/
theorem Node.IsJson.gives {P : Expr → Prop} (hP : Expr.Composed P fun _ => True) (h : n.IsJson) :
  n.Gives P
  := by
  induction h with
  | list h ih =>
    apply hP.gives (.list h)
    · rintro ns ⟨⟩
      exact ih
    · rintro ms ⟨⟩
    · rintro ms ⟨⟩
  | object h ih =>
    apply hP.gives (.object h)
    · rintro ns ⟨⟩
    · rintro ms ⟨⟩
      exact ih
    · exact fun _ _ => trivial
  | _ =>
    apply hP.gives (by constructor)
    · rintro ns ⟨⟩
    · rintro ms ⟨⟩
    · rintro ms ⟨⟩

end CqlGateway

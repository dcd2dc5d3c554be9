import CqlGateway.Proofs.Statement.Assembly

/-!
# Expressions and queries that are read

A term carries members for every kind, and a document may give all of them. What is read from a
document is tidy: a term has only the members that count for its kind, expressions are missing only
where a query or a statement has a place for them, and the raw nodes of a query are plain.
-/

namespace CqlGateway

variable {n : Node} {e : Expr} {q : Select} {es : List Expr}

/-! ### Tidy expressions -/

/-- A query as an expression. -/
def Expr.ofQuery (q : Select) : Expr :=
  .of { Term.blank .subquery with query := some q }

/-- Expressions that have just the members that count. -/
inductive Expr.IsTidy : Expr → Prop
  | text (s : String) : IsTidy (.text s)
  | number (literal : String) : IsTidy (.number literal)
  | bool (b : Bool) : IsTidy (.bool b)
  | null : IsTidy .null
  | star : IsTidy .star
  | param (name : String) : IsTidy (.of { Term.blank .param with name := name })
  | column (table column : String) :
      IsTidy (.of { Term.blank .column with table := table, column := column })
  | binary (operator : String) {left right : Expr} (hleft : IsTidy left) (hright : IsTidy right) :
      IsTidy (.binary operator left right)
  | unary (operator : String) {operand : Expr} (hoperand : IsTidy operand) :
      IsTidy (.unary operator operand)
  | call {kind : TermKind} (hkind : kind = .function ∨ kind = .aggregate) (name : String)
      {args : List Expr} (hargs : ∀ e ∈ args, IsTidy e) (distinct : Bool) :
      IsTidy (.of { Term.blank kind with name := name, args := args, distinct := distinct })
  | list {items : List Expr} (hitems : ∀ e ∈ items, IsTidy e) : IsTidy (.list items)
  | emptySubquery : IsTidy (.of (Term.blank .subquery))
  | query {q : Select} (hcolumns : ∀ c ∈ q.columns, c.expr.isPresent = true → IsTidy c.expr)
      (hon : ∀ r ∈ q.sources.getD [], r.on.isPresent = true → IsTidy r.on)
      (hsubqueries : ∀ r ∈ q.sources.getD [], ∀ p, r.subquery = some p → IsTidy (.ofQuery p))
      (hfilter : q.filter.isPresent = true → IsTidy q.filter)
      (hgroupBy : ∀ e ∈ q.groupBy, e.isPresent = true → IsTidy e)
      (hhaving : q.having.isPresent = true → IsTidy q.having)
      (horderBy : ∀ o ∈ q.orderBy, o.expr.isPresent = true → IsTidy o.expr)
      (hlimit : q.limit.IsPlain) (hoffset : q.offset.IsPlain) : IsTidy (.ofQuery q)

/-- The place of an expression, with a tidy expression in it or none. -/
def Expr.IsTidySlot (e : Expr) : Prop :=
  e.isPresent = true → e.IsTidy

theorem Expr.isTidySlot_missing :
  Expr.missing.IsTidySlot
  := fun h => nomatch h

theorem Expr.IsTidy.slot (h : e.IsTidy) :
  e.IsTidySlot
  := fun _ => h

/-- A source whose parts are tidy. -/
structure TableRef.IsTidy (r : TableRef) : Prop where
  on : r.on.IsTidySlot
  subquery : ∀ p, r.subquery = some p → (Expr.ofQuery p).IsTidy

/-- A query whose parts are tidy. -/
structure Select.IsTidy (q : Select) : Prop where
  columns : ∀ c ∈ q.columns, c.expr.IsTidySlot
  sources : ∀ r ∈ q.sources.getD [], r.IsTidy
  filter : q.filter.IsTidySlot
  groupBy : ∀ e ∈ q.groupBy, e.IsTidySlot
  having : q.having.IsTidySlot
  orderBy : ∀ o ∈ q.orderBy, o.expr.IsTidySlot
  limit : q.limit.IsPlain
  offset : q.offset.IsPlain

theorem Select.IsTidy.ofQuery (h : q.IsTidy) :
  (Expr.ofQuery q).IsTidy
  := by
  apply Expr.IsTidy.query h.columns _ _ h.filter h.groupBy h.having h.orderBy h.limit h.offset
  · intro r hr
    exact (h.sources r hr).on
  · intro r hr
    exact (h.sources r hr).subquery

theorem Expr.IsTidy.ofQuery (h : (Expr.ofQuery q).IsTidy) :
  q.IsTidy
  := by
  generalize he : Expr.ofQuery q = e at h
  cases h with
  | query hcolumns hon hsubqueries hfilter hgroupBy hhaving horderBy hlimit hoffset =>
    cases he
    exact
      { columns := hcolumns
        sources := fun r hr => ⟨hon r hr, hsubqueries r hr⟩
        filter := hfilter
        groupBy := hgroupBy
        having := hhaving
        orderBy := horderBy
        limit := hlimit
        offset := hoffset }
  | call hkind =>
    rcases hkind with rfl | rfl <;> cases he
  | _ => cases he

theorem TableRef.isTidy_blank :
  TableRef.blank.IsTidy
  := ⟨Expr.isTidySlot_missing, nofun⟩

theorem Select.isTidy_blank :
  Select.blank.IsTidy
  where
  columns := List.forall_mem_nil _
  sources := List.forall_mem_nil _
  filter := Expr.isTidySlot_missing
  groupBy := List.forall_mem_nil _
  having := Expr.isTidySlot_missing
  orderBy := List.forall_mem_nil _
  limit := .null
  offset := .null

/-! ### Readers of tidy parts -/

open Reading

/-- Reading a node as an expression, as a query or as a part of a query gives something tidy. -/
structure Node.ReadsTidy (n : Node) : Prop where
  expr : ∀ e, Expr.read n = .ok e → e.IsTidy
  items : ∀ es, Expr.readList n = .ok es → ∀ e ∈ es, e.IsTidy
  wrapped : ∀ e, Expr.readWrapped? n = some (.ok e) → e.IsTidy
  query : ∀ q : Select, q.IsTidy → Keeps Select.IsTidy (Select.read q n)
  groupBy : Keeps (fun es => ∀ e ∈ es, e.IsTidySlot) (Expr.readSlots n)
  column : ∀ c : SelectColumn, c.expr.IsTidySlot → Keeps (·.expr.IsTidySlot) (SelectColumn.read c n)
  columns : Keeps (fun cs => ∀ c ∈ cs, c.expr.IsTidySlot) (SelectColumn.readList n)
  criterion : ∀ o : OrderItem, o.expr.IsTidySlot → Keeps (·.expr.IsTidySlot) (OrderItem.read o n)
  orderBy : Keeps (fun os => ∀ o ∈ os, o.expr.IsTidySlot) (OrderItem.readList n)
  source : ∀ r : TableRef, r.IsTidy → Keeps TableRef.IsTidy (TableRef.read r n)
  sources : Keeps (fun rs => ∀ r ∈ rs.getD [], r.IsTidy) (TableRef.readList n)

theorem Node.ReadsTidy.gives (h : n.ReadsTidy) :
  n.Gives Expr.IsTidy
  := ⟨h.expr, h.items, h.wrapped⟩

theorem Expr.keeps_slot (h : ∀ e, Expr.read n = .ok e → e.IsTidy) :
  Keeps Expr.IsTidySlot (Expr.slot n (Expr.read n))
  := by
  unfold Expr.slot
  split
  · exact keeps_pure isTidySlot_missing
  · exact keeps_ofExcept isTidySlot_missing fun e he => (h e he).slot

theorem Select.keeps_slot {r : Reading Select} (h : Keeps Select.IsTidy r) :
  Keeps (fun q? => ∀ q, q? = some q → (Expr.ofQuery q).IsTidy) (Select.slot n r)
  := by
  unfold Select.slot
  split
  · exact keeps_pure fun _ h => nomatch h
  · refine h.map fun q hq p hp => ?_
    cases hp
    exact hq.ofQuery

theorem SelectColumn.keeps_fill (h : n.ReadsTidy) {c : SelectColumn} (hc : c.expr.IsTidySlot)
    (slot : String) :
  Keeps (·.expr.IsTidySlot) (SelectColumn.fill c slot n)
  := by
  unfold SelectColumn.fill
  split
  · exact (Expr.keeps_slot h.expr).put fun e he => he
  · exact keeps_put fun _ => hc
  · exact keeps_pure hc

theorem OrderItem.keeps_fill (h : n.ReadsTidy) {o : OrderItem} (ho : o.expr.IsTidySlot)
    (slot : String) :
  Keeps (·.expr.IsTidySlot) (OrderItem.fill o slot n)
  := by
  unfold OrderItem.fill
  split
  · exact (Expr.keeps_slot h.expr).put fun e he => he
  · exact keeps_put fun _ => ho
  · exact keeps_pure ho

theorem TableRef.keeps_fill (h : n.ReadsTidy) {r : TableRef} (hr : r.IsTidy) (slot : String) :
  Keeps TableRef.IsTidy (TableRef.fill r slot n)
  := by
  unfold TableRef.fill
  split
  · exact keeps_put fun _ => ⟨hr.on, hr.subquery⟩
  · exact keeps_put fun _ => ⟨hr.on, hr.subquery⟩
  · exact (Expr.keeps_slot h.expr).put fun e he => ⟨he, hr.subquery⟩
  · have hold : (r.subquery.getD Select.blank).IsTidy := by
      cases hq : r.subquery with
      | none => exact Select.isTidy_blank
      | some q => exact (hr.subquery q hq).ofQuery
    exact (Select.keeps_slot (h.query _ hold)).put fun q? hq => ⟨hr.on, hq⟩
  · exact keeps_put fun _ => ⟨hr.on, hr.subquery⟩

theorem Select.keeps_fill (hn : n.IsDocument) (h : n.ReadsTidy) (hq : q.IsTidy) (slot : String) :
  Keeps Select.IsTidy (Select.fill q slot n)
  := by
  have hslot := Expr.keeps_slot h.expr
  have hraw : Keeps Node.IsPlain (Reading.raw n) := keeps_pure (Node.isPlain_canonical hn)
  unfold Select.fill
  split
  · exact keeps_put fun _ => { hq with }
  · exact h.columns.put fun _ hcolumns => { hq with columns := hcolumns }
  · exact h.sources.put fun _ hsources => { hq with sources := hsources }
  · exact hslot.put fun _ hfilter => { hq with filter := hfilter }
  · exact h.groupBy.put fun _ hgroupBy => { hq with groupBy := hgroupBy }
  · exact hslot.put fun _ hhaving => { hq with having := hhaving }
  · exact h.orderBy.put fun _ horderBy => { hq with orderBy := horderBy }
  · exact hraw.put fun _ hlimit => { hq with limit := hlimit }
  · exact hraw.put fun _ hoffset => { hq with offset := hoffset }
  · exact keeps_put fun _ => { hq with }
  · exact keeps_pure hq

/-! ### Everything that is read is tidy -/

/-- The queries of tidy subqueries are tidy. -/
theorem Expr.composed_isTidy :
  Expr.Composed Expr.IsTidy fun q? => ∀ q, q? = some q → q.IsTidy
  where
  text := .text
  number := .number
  bool := .bool
  null := .null
  star := .star
  param := .param
  column := .column
  binary := .binary
  unary := .unary
  call := .call
  list := .list
  subquery := by
    intro q? hq
    cases q? with
    | none => exact .emptySubquery
    | some q => exact (hq q rfl).ofQuery
  items := by
    intro e he hlist
    cases he with
    | list hitems => exact hitems
    | call hkind => rcases hkind with rfl | rfl <;> cases hlist
    | _ => cases hlist

theorem Select.isTidy_member? {ms : List (String × Node)} (h : ∀ m ∈ ms, m.2.ReadsTidy)
    (hq : Select.readMember? ms = some q) :
  q.IsTidy
  := by
  rw [Select.readMember?_eq, Option.bind_eq_some_iff] at hq
  obtain ⟨n, hn, hq⟩ := hq
  cases hresult : (Select.read Select.blank n).result with
  | error fault =>
    rw [hresult] at hq
    cases hq
  | ok p =>
    rw [hresult] at hq
    cases hq
    exact ((h _ (Node.mem_of_lookup? hn)).query _ isTidy_blank).of_result hresult

/-- A document reads tidy if its items and members do. -/
theorem Node.IsDocument.readsTidy_of_parts (hn : n.IsDocument)
    (hitems : ∀ ns, n = .list ns → ∀ m ∈ ns, m.ReadsTidy)
    (hmembers : ∀ ms, n = .object ms → ∀ m ∈ ms, m.2.ReadsTidy) :
  n.ReadsTidy
  := by
  have hgives : n.Gives Expr.IsTidy := by
    apply Expr.composed_isTidy.gives hn.isJson
    · exact fun ns hns m hm => (hitems ns hns m hm).gives
    · exact fun ms hms m hm => (hmembers ms hms m hm).gives
    · exact fun ms hms q hq => Select.isTidy_member? (hmembers ms hms) hq
  have hdocuments : ∀ ms, n = .object ms → ∀ m ∈ ms, m.2.IsDocument := by
    rintro ms rfl
    cases hn with
    | object h => exact h
  exact
    { expr := hgives.expr
      items := hgives.items
      wrapped := hgives.wrapped
      query := by
        intro q hq
        rw [Select.read_eq]
        refine keeps_record hq fun ms hms m hm a slot ha => ?_
        exact Select.keeps_fill (hdocuments ms hms m hm) (hmembers ms hms m hm) ha slot
      groupBy := by
        rw [Expr.readSlots_eq]
        apply keeps_list
        intro ns hns m hm
        exact Expr.keeps_slot (hitems ns hns m hm).expr
      column := by
        intro c hc
        rw [SelectColumn.read_eq]
        refine keeps_record hc fun ms hms m hm a slot ha => ?_
        exact SelectColumn.keeps_fill (hmembers ms hms m hm) ha slot
      columns := by
        rw [SelectColumn.readList_eq]
        apply keeps_list
        intro ns hns m hm
        exact (hitems ns hns m hm).column _ Expr.isTidySlot_missing
      criterion := by
        intro o ho
        rw [OrderItem.read_eq]
        refine keeps_record ho fun ms hms m hm a slot ha => ?_
        exact OrderItem.keeps_fill (hmembers ms hms m hm) ha slot
      orderBy := by
        rw [OrderItem.readList_eq]
        apply keeps_list
        intro ns hns m hm
        exact (hitems ns hns m hm).criterion _ Expr.isTidySlot_missing
      source := by
        intro r hr
        rw [TableRef.read_eq]
        refine keeps_record hr fun ms hms m hm a slot ha => ?_
        exact TableRef.keeps_fill (hmembers ms hms m hm) ha slot
      sources := by
        rw [TableRef.readList_eq]
        apply keeps_optionalList
        intro ns hns m hm
        exact (hitems ns hns m hm).source _ TableRef.isTidy_blank }

theorem Node.IsDocument.readsTidy (h : n.IsDocument) :
  n.ReadsTidy
  := by
  induction h with
  | null | bool | text =>
    apply readsTidy_of_parts (by constructor)
    · rintro ns ⟨⟩
    · rintro ms ⟨⟩
  | number h =>
    apply readsTidy_of_parts (.number h)
    · rintro ns ⟨⟩
    · rintro ms ⟨⟩
  | list h ih =>
    apply readsTidy_of_parts (.list h)
    · rintro ns ⟨⟩
      exact ih
    · rintro ms ⟨⟩
  | object h ih =>
    apply readsTidy_of_parts (.object h)
    · rintro ns ⟨⟩
    · rintro ms ⟨⟩
      exact ih

end CqlGateway

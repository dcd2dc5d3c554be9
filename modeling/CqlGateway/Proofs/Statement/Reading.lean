import CqlGateway.Proofs.Statement.Document

/-!
# Readers of documents

A reader keeps a property if what it ends with has the property, whatever fault it came upon. It
gives a value if it ends with the value and without a fault. Both are taken over by records and by
lists from the readers of their parts.

The readers of queries and of their parts are readers of records and of lists like all others, and
the parts of an expression are read from the members that are looked up.
-/

namespace CqlGateway

/-! ### Readers of queries -/

/-- Fill one slot of a query. -/
def Select.fill (s : Select) (slot : String) (n : Node) : Reading Select :=
  match slot with
  | "distinct" => do pure { s with distinct := ← Reading.flag s.distinct n }
  | "columns" => do pure { s with columns := ← SelectColumn.readList n }
  | "from" => do pure { s with sources := ← TableRef.readList n }
  | "where" => do pure { s with filter := ← Expr.slot n (Expr.read n) }
  | "group_by" => do pure { s with groupBy := ← Expr.readSlots n }
  | "having" => do pure { s with having := ← Expr.slot n (Expr.read n) }
  | "order_by" => do pure { s with orderBy := ← OrderItem.readList n }
  | "limit" => do pure { s with limit := ← Reading.raw n }
  | "offset" => do pure { s with offset := ← Reading.raw n }
  | "set_op" => do pure { s with setOperation := ← Reading.text s.setOperation n }
  | _ => pure s

/-- Fill one slot of a column of a query. -/
def SelectColumn.fill (c : SelectColumn) (slot : String) (n : Node) : Reading SelectColumn :=
  match slot with
  | "expr" => do pure { c with expr := ← Expr.slot n (Expr.read n) }
  | "alias" => do pure { c with label := ← Reading.text c.label n }
  | _ => pure c

/-- Fill one slot of a criterion of an ordering. -/
def OrderItem.fill (o : OrderItem) (slot : String) (n : Node) : Reading OrderItem :=
  match slot with
  | "expr" => do pure { o with expr := ← Expr.slot n (Expr.read n) }
  | "desc" => do pure { o with desc := ← Reading.flag o.desc n }
  | _ => pure o

/-- Fill one slot of a source. -/
def TableRef.fill (r : TableRef) (slot : String) (n : Node) : Reading TableRef :=
  match slot with
  | "alias" => do pure { r with label := ← Reading.text r.label n }
  | "join" => do pure { r with join := ← Reading.text r.join n }
  | "on" => do pure { r with on := ← Expr.slot n (Expr.read n) }
  | "subquery" => do
    let query := Select.read (r.subquery.getD Select.blank) n
    pure { r with subquery := ← Select.slot n query }
  | slot => do pure { r with table := ← r.table.fill slot n }

/-- A reader that fills the slots of the members one after another reads a record. -/
theorem Reading.foldlM_of_cons {α : Type} {fill : α → String → Node → Reading α}
    {fillAll : α → List (String × Node) → Reading α} (hnil : ∀ a, fillAll a [] = pure a)
    (hcons : ∀ a name n ms, fillAll a ((name, n) :: ms)
      = fill a (Text.fold name) n >>= fun next => fillAll next ms)
    (a : α) (members : List (String × Node)) :
  fillAll a members = members.foldlM (fun a m => fill a (Text.fold m.1) m.2) a
  := by
  induction members generalizing a with
  | nil => rw [hnil, List.foldlM_nil]
  | cons m ms ih =>
    rw [hcons, List.foldlM_cons]
    simp only [ih]

/-- A reader that reads items one after another reads a list. -/
theorem Reading.items_of_cons {α : Type} {fill : α → Node → Reading α} {blank : α}
    {readAll : List Node → Reading (List α)} (hnil : readAll [] = pure [])
    (hcons : ∀ n ns, readAll (n :: ns) = do return (← fill blank n) :: (← readAll ns))
    (ns : List Node) :
  readAll ns = items fill blank ns
  := by
  induction ns with
  | nil => rw [hnil, items]
  | cons n ns ih => rw [hcons, items, ih]

theorem Select.fillAll_cons (s : Select) (name : String) (n : Node) (ms : List (String × Node)) :
  Select.fillAll s ((name, n) :: ms)
    = Select.fill s (Text.fold name) n >>= fun next => Select.fillAll next ms
  := by
  conv_lhs => unfold Select.fillAll
  dsimp only
  generalize Text.fold name = slot
  unfold Select.fill
  split <;> simp

theorem Select.read_eq (old : Select) (n : Node) :
  Select.read old n = Reading.record Select.fill old n
  := by
  cases n with
  | object members =>
    exact Reading.foldlM_of_cons (fun _ => rfl) Select.fillAll_cons old members
  | _ => rfl

theorem SelectColumn.fillAll_cons (c : SelectColumn) (name : String) (n : Node) (ms : List (String × Node)) :
  SelectColumn.fillAll c ((name, n) :: ms)
    = SelectColumn.fill c (Text.fold name) n >>= fun next => SelectColumn.fillAll next ms
  := by
  conv_lhs => unfold SelectColumn.fillAll
  dsimp only
  generalize Text.fold name = slot
  unfold SelectColumn.fill
  split <;> simp

theorem SelectColumn.read_eq (old : SelectColumn) (n : Node) :
  SelectColumn.read old n = Reading.record SelectColumn.fill old n
  := by
  cases n with
  | object members =>
    exact Reading.foldlM_of_cons (fun _ => rfl) SelectColumn.fillAll_cons old members
  | _ => rfl

theorem OrderItem.fillAll_cons (o : OrderItem) (name : String) (n : Node) (ms : List (String × Node)) :
  OrderItem.fillAll o ((name, n) :: ms)
    = OrderItem.fill o (Text.fold name) n >>= fun next => OrderItem.fillAll next ms
  := by
  conv_lhs => unfold OrderItem.fillAll
  dsimp only
  generalize Text.fold name = slot
  unfold OrderItem.fill
  split <;> simp

theorem OrderItem.read_eq (old : OrderItem) (n : Node) :
  OrderItem.read old n = Reading.record OrderItem.fill old n
  := by
  cases n with
  | object members =>
    exact Reading.foldlM_of_cons (fun _ => rfl) OrderItem.fillAll_cons old members
  | _ => rfl

theorem TableRef.fillAll_cons (r : TableRef) (name : String) (n : Node) (ms : List (String × Node)) :
  TableRef.fillAll r ((name, n) :: ms)
    = TableRef.fill r (Text.fold name) n >>= fun next => TableRef.fillAll next ms
  := by
  conv_lhs => unfold TableRef.fillAll
  dsimp only
  generalize Text.fold name = slot
  unfold TableRef.fill
  split <;> simp

theorem TableRef.read_eq (old : TableRef) (n : Node) :
  TableRef.read old n = Reading.record TableRef.fill old n
  := by
  cases n with
  | object members =>
    exact Reading.foldlM_of_cons (fun _ => rfl) TableRef.fillAll_cons old members
  | _ => rfl

/-- Fill the place of an expression. -/
def Expr.readSlot (_ : Expr) (n : Node) : Reading Expr :=
  Expr.slot n (Expr.read n)

theorem Expr.readSlots_eq (n : Node) :
  Expr.readSlots n = Reading.list Expr.readSlot .missing n
  := by
  cases n with
  | list ns =>
    exact Reading.items_of_cons (by rw [Expr.readSlotItems])
      (fun n ns => by rw [Expr.readSlotItems]; rfl) ns
  | _ => rfl

theorem SelectColumn.readList_eq (n : Node) :
  SelectColumn.readList n = Reading.list SelectColumn.read ⟨.missing, ""⟩ n
  := by
  cases n with
  | list ns =>
    exact Reading.items_of_cons (by rw [SelectColumn.readItems]) (fun n ns => by rw [SelectColumn.readItems]) ns
  | _ => rfl

theorem OrderItem.readList_eq (n : Node) :
  OrderItem.readList n = Reading.list OrderItem.read ⟨.missing, false⟩ n
  := by
  cases n with
  | list ns =>
    exact Reading.items_of_cons (by rw [OrderItem.readItems]) (fun n ns => by rw [OrderItem.readItems]) ns
  | _ => rfl

theorem TableRef.readList_eq (n : Node) :
  TableRef.readList n = Reading.optionalList TableRef.read TableRef.blank n
  := by
  cases n with
  | list ns =>
    apply congrArg (some <$> ·)
    exact Reading.items_of_cons (by rw [TableRef.readItems]) (fun n ns => by rw [TableRef.readItems])
      ns
  | _ => rfl

/-! ### Parts of expressions -/

theorem Expr.readMember?_eq (name : String) (ms : List (String × Node)) :
  Expr.readMember? name ms = (Node.lookup? name ms).map Expr.read
  := by
  apply Node.eq_map_lookup? (by rw [Expr.readMember?])
  intro key n ms
  rw [Expr.readMember?]
  cases Expr.readMember? name ms <;> rfl

theorem Expr.readListMember?_eq (name : String) (ms : List (String × Node)) :
  Expr.readListMember? name ms = (Node.lookup? name ms).map Expr.readList
  := by
  apply Node.eq_map_lookup? (by rw [Expr.readListMember?])
  intro key n ms
  rw [Expr.readListMember?]
  cases Expr.readListMember? name ms <;> rfl

theorem Expr.read_object (ms : List (String × Node)) :
  Expr.read (.object ms)
    = Parts.assemble ms {
        expr? := fun name => Expr.readMember? name ms
        items? := fun name => Expr.readListMember? name ms
        args := Expr.readArgs ms
        query := Select.readMember? ms }
  := by
  rw [Expr.read]

theorem Expr.readArgs_eq (ms : List (String × Node)) :
  Expr.readArgs ms
    = ((Node.lookup? "args" ms).map fun n =>
        Expr.argsOf n (Expr.read n) (Expr.readList n) (Expr.readWrapped? n)).getD (.ok ([], false))
  := by
  induction ms with
  | nil => rw [Expr.readArgs, Node.lookup?, Option.map_none, Option.getD_none]
  | cons m ms ih =>
    obtain ⟨key, n⟩ := m
    rw [Expr.readArgs, Node.lookup?, ih]
    cases hfound : Node.lookup? "args" ms with
    | some found => simp
    | none =>
      by_cases hkey : key = "args"
      · simp [hkey]
      · simp [hkey]

theorem Select.readMember?_eq (ms : List (String × Node)) :
  Select.readMember? ms
    = (Node.lookup? "select" ms).bind fun n => (Select.read Select.blank n).result.toOption
  := by
  induction ms with
  | nil => rw [Select.readMember?, Node.lookup?, Option.bind_none]
  | cons m ms ih =>
    obtain ⟨key, n⟩ := m
    rw [Select.readMember?, Node.lookup?, ih]
    cases hfound : Node.lookup? "select" ms with
    | some found => simp
    | none =>
      by_cases hkey : key = "select"
      · simp [hkey]
      · simp [hkey]

/-! ### Properties that readers keep -/

namespace Reading

variable {α β : Type} {P : α → Prop} {Q : β → Prop} {r : Reading α} {f : α → Reading β} {a : α}

/-- Whatever a reader ends with has a property. -/
structure Keeps (P : α → Prop) (r : Reading α) : Prop where
  run : ∀ fault?, P (r.run fault?).1

theorem keeps_pure (h : P a) :
  Keeps P (pure a)
  := ⟨fun _ => h⟩

theorem Keeps.bind (hr : Keeps P r) (hf : ∀ a, P a → Keeps Q (f a)) :
  Keeps Q (r >>= f)
  := ⟨fun fault? => (hf _ (hr.run fault?)).run _⟩

theorem Keeps.map {f : α → β} (hr : Keeps P r) (hf : ∀ a, P a → Q (f a)) :
  Keeps Q (f <$> r)
  := ⟨fun fault? => hf _ (hr.run fault?)⟩

theorem keeps_bind_of_forall (hf : ∀ a, Keeps Q (f a)) :
  Keeps Q (r >>= f)
  := ⟨fun _ => (hf _).run _⟩

theorem Keeps.put {f : α → β} (hr : Keeps P r) (hf : ∀ a, P a → Q (f a)) :
  Keeps Q (r >>= fun a => pure (f a))
  := hr.bind fun a ha => keeps_pure (hf a ha)

theorem keeps_put {f : α → β} (hf : ∀ a, Q (f a)) :
  Keeps Q (r >>= fun a => pure (f a))
  := keeps_bind_of_forall fun a => keeps_pure (hf a)

theorem keeps_mismatch {old : α} (h : P old) :
  Keeps P (mismatch old)
  := ⟨fun _ => h⟩

theorem keeps_ofExcept {old : α} {r : Except Rejection α} (hold : P old)
    (hr : ∀ a, r = .ok a → P a) :
  Keeps P (ofExcept old r)
  := by
  cases r with
  | ok a => exact keeps_pure (hr a rfl)
  | error e => exact ⟨fun _ => hold⟩

theorem keeps_record {fill : α → String → Node → Reading α} {n : Node} {old : α} (hold : P old)
    (hfill : ∀ members, n = .object members → ∀ m ∈ members, ∀ a slot, P a →
      Keeps P (fill a slot m.2)) :
  Keeps P (record fill old n)
  := by
  unfold record
  split
  · exact keeps_pure hold
  next members =>
    replace hfill := hfill members rfl
    induction members generalizing old with
    | nil => exact keeps_pure hold
    | cons m ms ih =>
      rw [List.forall_mem_cons] at hfill
      rw [List.foldlM_cons]
      refine (hfill.1 old _ hold).bind fun a ha => ?_
      exact ih ha hfill.2
  · exact keeps_mismatch hold

theorem keeps_items {fill : α → Node → Reading α} {blank : α} {ns : List Node}
    (hfill : ∀ n ∈ ns, Keeps P (fill blank n)) :
  Keeps (fun as => ∀ a ∈ as, P a) (items fill blank ns)
  := by
  induction ns with
  | nil => exact keeps_pure (List.forall_mem_nil P)
  | cons n ns ih =>
    rw [List.forall_mem_cons] at hfill
    rw [items]
    refine hfill.1.bind fun a ha => ?_
    refine (ih hfill.2).bind fun as has => ?_
    exact keeps_pure (List.forall_mem_cons.mpr ⟨ha, has⟩)

theorem keeps_list {fill : α → Node → Reading α} {blank : α} {n : Node}
    (hfill : ∀ ns, n = .list ns → ∀ m ∈ ns, Keeps P (fill blank m)) :
  Keeps (fun as => ∀ a ∈ as, P a) (list fill blank n)
  := by
  unfold list
  split
  · exact keeps_pure (List.forall_mem_nil P)
  · exact keeps_items (hfill _ rfl)
  · exact keeps_mismatch (List.forall_mem_nil P)

theorem keeps_optionalList {fill : α → Node → Reading α} {blank : α} {n : Node}
    (hfill : ∀ ns, n = .list ns → ∀ m ∈ ns, Keeps P (fill blank m)) :
  Keeps (fun as => ∀ a ∈ as.getD [], P a) (optionalList fill blank n)
  := by
  unfold optionalList
  split
  · exact keeps_pure (List.forall_mem_nil P)
  · exact (keeps_items (hfill _ rfl)).map fun _ h => h
  · exact keeps_mismatch (List.forall_mem_nil P)

theorem Keeps.of_result (h : Keeps P r) (hr : r.result = .ok a) :
  P a
  := by
  have hrun := h.run none
  unfold result at hr
  split at hr
  next b heq =>
    cases hr
    rwa [heq] at hrun
  next => cases hr

/-! ### Values that readers give -/

/-- A reader ends with a value and without a fault. -/
def Gives (r : Reading α) (a : α) : Prop :=
  r.run none = (a, none)

theorem gives_pure (a : α) :
  Gives (pure a) a
  := rfl

theorem Gives.bind {b : β} (hr : r.Gives a) (hf : (f a).Gives b) :
  (r >>= f).Gives b
  := by
  change (match r.run none with | (a, fault?) => (f a).run fault?) = _
  rw [hr]
  exact hf

theorem Gives.map (hr : r.Gives a) (f : α → β) :
  (f <$> r).Gives (f a)
  := by
  rw [map_eq_pure_bind]
  exact hr.bind (gives_pure (f a))

theorem gives_iff_result :
  r.Gives a ↔ r.result = .ok a
  := by
  unfold Gives result
  constructor
  · intro h
    rw [h]
  · intro h
    split at h
    next b heq =>
      cases h
      exact heq
    next => cases h

end Reading

end CqlGateway

import CqlGateway.Proofs.Number.Decimal
import CqlGateway.Proofs.Statement.Tidy

/-!
# Statements that are read

A statement that is read from a text is tidy: so are its expressions and its queries, its raw nodes
are plain, its options are sorted, and the positions of its columns are numbers of 64 bits.
-/

namespace CqlGateway

open Node Reading

/-! ### Tidy statements -/

/-- A column declaration whose position is a number of 64 bits. -/
def Column.IsTidy (c : Column) : Prop :=
  Integer64.InRange c.position

/-- A statement that inserts rows whose parts are tidy. -/
structure Insert.IsTidy (s : Insert) : Prop where
  values : s.values.IsPlain
  query : ∀ q, s.query = some q → (Expr.ofQuery q).IsTidy

/-- A statement that creates an index whose parts are tidy. -/
structure CreateIndex.IsTidy (s : CreateIndex) : Prop where
  columns : ∀ c ∈ s.columns.getD [], c.expr.IsTidySlot
  filter : s.filter.IsTidySlot

/-- A statement that changes rows whose parts are tidy. -/
structure Update.IsTidy (s : Update) : Prop where
  sources : ∀ r ∈ s.sources, r.IsTidy
  assignments : ∀ a ∈ s.assignments.getD [], a.value.IsTidySlot
  filter : s.filter.IsTidySlot
  orderBy : ∀ o ∈ s.orderBy, o.expr.IsTidySlot
  limit : s.limit.IsPlain

/-- A statement that deletes rows whose parts are tidy. -/
structure Delete.IsTidy (s : Delete) : Prop where
  sources : ∀ r ∈ s.sources, r.IsTidy
  filter : s.filter.IsTidySlot
  orderBy : ∀ o ∈ s.orderBy, o.expr.IsTidySlot
  limit : s.limit.IsPlain

/-- Statements whose parts are tidy. -/
def Statement.IsTidy : Statement → Prop
  | .createKeyspace s => AscendingMembers s.options
  | .alterKeyspace s => AscendingMembers s.options
  | .createTable s => ∀ c ∈ s.columns.getD [], c.IsTidy
  | .alterTable s => ∀ spec ∈ s.specs.getD [], spec.column.IsTidy
  | .createIndex s => s.IsTidy
  | .dropIndex s => s.name.IsPlain
  | .createView s => ∀ q, s.definition = some q → (Expr.ofQuery q).IsTidy
  | .select s => s.IsTidy
  | .insert s => s.IsTidy
  | .update s => s.IsTidy
  | .delete s => s.IsTidy
  | .dropKeyspace _ | .use _ | .describe _ | .dropTable _ | .truncateTable _ | .dropView _ => True

theorem Json.isSpelled_of_read {text : String} {j : Json} (h : Json.read text = .ok j) :
  j.IsSpelled
  := by
  unfold Json.read at h
  split at h
  next hread =>
    cases h
    exact Json.isSpelled_of_read? hread
  next => cases h

/-! ### Slots -/

theorem Reading.keeps_integer {old : Int} (h : Integer64.InRange old) (n : Node) :
  Keeps Integer64.InRange (integer old n)
  := by
  unfold integer
  split
  · exact keeps_pure h
  · split
    next hread => exact keeps_pure (Integer64.inRange_of_read? hread)
    next => exact keeps_mismatch h
  · exact keeps_mismatch h

theorem Reading.keeps_options {old : List (String × String)} (h : AscendingMembers old) (n : Node) :
  Keeps AscendingMembers (options old n)
  := by
  unfold options
  split
  · exact keeps_pure List.Pairwise.nil
  next members =>
    induction members generalizing old with
    | nil => exact keeps_pure h
    | cons m ms ih =>
      rw [List.foldlM_cons]
      refine Keeps.bind (P := AscendingMembers) ?_ fun opts hopts => ih hopts
      exact keeps_bind_of_forall fun s => keeps_pure (ascending_insertMember m.1 s h)
  · exact keeps_mismatch h

theorem Reading.keeps_raw {n : Node} (h : n.IsDocument) :
  Keeps Node.IsPlain (raw n)
  := keeps_pure (isPlain_canonical h)

theorem Column.keeps_read {c : Column} (h : c.IsTidy) (n : Node) :
  Keeps Column.IsTidy (c.read n)
  := by
  apply keeps_record h
  intro _ _ m _ c slot hc
  unfold Column.fill
  split
  case h_7 => exact (keeps_integer hc m.2).put fun _ hposition => hposition
  case h_8 => exact keeps_pure hc
  all_goals exact keeps_put fun _ => hc

theorem Column.isTidy_blank :
  Column.IsTidy {}
  := by
  unfold Column.IsTidy Integer64.InRange
  decide

theorem AlterSpec.keeps_read {s : AlterSpec} (h : s.column.IsTidy) (n : Node) :
  Keeps (·.column.IsTidy) (record AlterSpec.fill s n)
  := by
  refine keeps_record h fun _ _ m _ s slot hs => ?_
  unfold AlterSpec.fill
  split
  case h_2 => exact (Column.keeps_read hs m.2).put fun _ hcolumn => hcolumn
  case h_5 => exact keeps_pure hs
  all_goals exact keeps_put fun _ => hs

section

variable {n : Node} (hn : n.IsDocument)

include hn

/-- A record is read with a property if each of its slots keeps it. -/
theorem Reading.keeps_recordOf {α : Type} {P : α → Prop} {fill : α → String → Node → Reading α}
    {old : α} (hold : P old)
    (hfill : ∀ m : Node, m.IsDocument → ∀ a slot, P a → Keeps P (fill a slot m)) :
  Keeps P (record fill old n)
  := by
  apply keeps_record hold
  rintro members rfl m hm
  cases hn with
  | object h => exact hfill m.2 (h m hm)

theorem IndexColumn.keeps_read {c : IndexColumn} (h : c.expr.IsTidySlot) :
  Keeps (·.expr.IsTidySlot) (record IndexColumn.fill c n)
  := by
  refine keeps_recordOf hn h fun m hm c slot hc => ?_
  unfold IndexColumn.fill
  split
  case h_2 => exact (Expr.keeps_slot hm.readsTidy.expr).put fun _ hexpr => hexpr
  case h_4 => exact keeps_pure hc
  all_goals exact keeps_put fun _ => hc

theorem Assignment.keeps_read {a : Assignment} (h : a.value.IsTidySlot) :
  Keeps (·.value.IsTidySlot) (record Assignment.fill a n)
  := by
  refine keeps_recordOf hn h fun m hm a slot ha => ?_
  unfold Assignment.fill
  split
  case h_2 => exact (Expr.keeps_slot hm.readsTidy.expr).put fun _ hvalue => hvalue
  case h_3 => exact keeps_pure ha
  all_goals exact keeps_put fun _ => ha

theorem Reading.keeps_optionalListOf {α : Type} {P : α → Prop} {fill : α → Node → Reading α}
    {blank : α} (hfill : ∀ m : Node, m.IsDocument → Keeps P (fill blank m)) :
  Keeps (fun as? => ∀ a ∈ as?.getD [], P a) (optionalList fill blank n)
  := by
  apply keeps_optionalList
  rintro ns rfl m hm
  cases hn with
  | list h => exact hfill m (h m hm)

theorem TableRef.keeps_readSources :
  Keeps (fun rs => ∀ r ∈ rs, r.IsTidy) (TableRef.readSources n)
  := hn.readsTidy.sources.put fun _ hrs => hrs

theorem Select.keeps_query {q? : Option Select}
    (h : ∀ q, q? = some q → (Expr.ofQuery q).IsTidy) :
  Keeps (fun q? => ∀ q, q? = some q → (Expr.ofQuery q).IsTidy)
    (Select.slot n (Select.read (q?.getD Select.blank) n))
  := by
  apply Select.keeps_slot
  apply hn.readsTidy.query
  cases q? with
  | none => exact Select.isTidy_blank
  | some q => exact (h q rfl).ofQuery

/-! ### Statements -/

theorem CreateKeyspace.keeps_read :
  Keeps (AscendingMembers ·.options) (record CreateKeyspace.fill {} n)
  := by
  refine keeps_recordOf hn List.Pairwise.nil fun m hm s slot hs => ?_
  unfold CreateKeyspace.fill
  split
  case h_3 => exact (keeps_options hs m).put fun _ hoptions => hoptions
  case h_4 => exact keeps_pure hs
  all_goals exact keeps_put fun _ => hs

theorem AlterKeyspace.keeps_read :
  Keeps (AscendingMembers ·.options) (record AlterKeyspace.fill {} n)
  := by
  refine keeps_recordOf hn List.Pairwise.nil fun m hm s slot hs => ?_
  unfold AlterKeyspace.fill
  split
  case h_2 => exact (keeps_options hs m).put fun _ hoptions => hoptions
  case h_3 => exact keeps_pure hs
  all_goals exact keeps_put fun _ => hs

theorem CreateTable.keeps_read :
  Keeps (fun s => ∀ c ∈ s.columns.getD [], c.IsTidy) (record CreateTable.fill {} n)
  := by
  refine keeps_recordOf hn (List.forall_mem_nil _) fun m hm s slot hs => ?_
  unfold CreateTable.fill
  split
  case h_3 =>
    refine Keeps.put (keeps_optionalListOf hm fun m _ => ?_) fun _ hcolumns => hcolumns
    exact Column.keeps_read Column.isTidy_blank m
  case h_5 => exact keeps_pure hs
  all_goals exact keeps_put fun _ => hs

theorem AlterTable.keeps_read :
  Keeps (fun s => ∀ spec ∈ s.specs.getD [], spec.column.IsTidy) (record AlterTable.fill {} n)
  := by
  refine keeps_recordOf hn (List.forall_mem_nil _) fun m hm s slot hs => ?_
  unfold AlterTable.fill
  split
  case h_2 =>
    refine Keeps.put (keeps_optionalListOf hm fun m _ => ?_) fun _ hspecs => hspecs
    exact AlterSpec.keeps_read Column.isTidy_blank m
  case h_3 => exact keeps_pure hs
  all_goals exact keeps_put fun _ => hs

theorem CreateIndex.keeps_read :
  Keeps CreateIndex.IsTidy (record CreateIndex.fill {} n)
  := by
  have hblank : CreateIndex.IsTidy {} := ⟨List.forall_mem_nil _, Expr.isTidySlot_missing⟩
  refine keeps_recordOf hn hblank fun m hm s slot hs => ?_
  unfold CreateIndex.fill
  split
  case h_3 =>
    refine Keeps.put (keeps_optionalListOf hm fun m hm => ?_) fun _ hcolumns =>
      { hs with columns := hcolumns }
    exact IndexColumn.keeps_read hm Expr.isTidySlot_missing
  case h_6 =>
    exact (Expr.keeps_slot hm.readsTidy.expr).put fun _ hfilter => { hs with filter := hfilter }
  case h_8 => exact keeps_pure hs
  all_goals exact keeps_put fun _ => { hs with }

theorem DropIndex.keeps_read :
  Keeps (·.name.IsPlain) (record DropIndex.fill {} n)
  := by
  refine keeps_recordOf hn IsPlain.null fun m hm s slot hs => ?_
  unfold DropIndex.fill
  split
  case h_1 => exact (keeps_raw hm).put fun _ hname => hname
  case h_4 => exact keeps_pure hs
  all_goals exact keeps_put fun _ => hs

theorem CreateView.keeps_read :
  Keeps (fun s => ∀ q, s.definition = some q → (Expr.ofQuery q).IsTidy)
    (record CreateView.fill {} n)
  := by
  refine keeps_recordOf hn nofun fun m hm s slot hs => ?_
  unfold CreateView.fill
  split
  case h_4 => exact (Select.keeps_query hm hs).put fun _ hquery => hquery
  case h_5 => exact keeps_pure hs
  all_goals exact keeps_put fun _ => hs

theorem Insert.keeps_read :
  Keeps Insert.IsTidy (record Insert.fill {} n)
  := by
  have hblank : Insert.IsTidy {} := ⟨.null, nofun⟩
  refine keeps_recordOf hn hblank fun m hm s slot hs => ?_
  unfold Insert.fill
  split
  case h_3 => exact (keeps_raw hm).put fun _ hvalues => { hs with values := hvalues }
  case h_4 =>
    exact (Select.keeps_query hm hs.query).put fun _ hquery => { hs with query := hquery }
  case h_5 => exact keeps_pure hs
  all_goals exact keeps_put fun _ => { hs with }

theorem Update.keeps_read :
  Keeps Update.IsTidy (record Update.fill {} n)
  := by
  have hblank : Update.IsTidy {} :=
    ⟨List.forall_mem_nil _, List.forall_mem_nil _, Expr.isTidySlot_missing, List.forall_mem_nil _,
      .null⟩
  refine keeps_recordOf hn hblank fun m hm s slot hs => ?_
  unfold Update.fill
  split
  case h_2 =>
    exact (TableRef.keeps_readSources hm).put fun _ hsources => { hs with sources := hsources }
  case h_3 =>
    refine Keeps.put (keeps_optionalListOf hm fun m hm => ?_) fun _ hassignments =>
      { hs with assignments := hassignments }
    exact Assignment.keeps_read hm Expr.isTidySlot_missing
  case h_4 =>
    exact (Expr.keeps_slot hm.readsTidy.expr).put fun _ hfilter => { hs with filter := hfilter }
  case h_5 =>
    exact hm.readsTidy.orderBy.put fun _ horderBy => { hs with orderBy := horderBy }
  case h_6 => exact (keeps_raw hm).put fun _ hlimit => { hs with limit := hlimit }
  case h_7 => exact keeps_pure hs
  all_goals exact keeps_put fun _ => { hs with }

theorem Delete.keeps_read :
  Keeps Delete.IsTidy (record Delete.fill {} n)
  := by
  have hblank : Delete.IsTidy {} :=
    ⟨List.forall_mem_nil _, Expr.isTidySlot_missing, List.forall_mem_nil _, .null⟩
  refine keeps_recordOf hn hblank fun m hm s slot hs => ?_
  unfold Delete.fill
  split
  case h_3 =>
    exact (TableRef.keeps_readSources hm).put fun _ hsources => { hs with sources := hsources }
  case h_4 =>
    exact (Expr.keeps_slot hm.readsTidy.expr).put fun _ hfilter => { hs with filter := hfilter }
  case h_5 =>
    exact hm.readsTidy.orderBy.put fun _ horderBy => { hs with orderBy := horderBy }
  case h_6 => exact (keeps_raw hm).put fun _ hlimit => { hs with limit := hlimit }
  case h_7 => exact keeps_pure hs
  all_goals exact keeps_put fun _ => { hs with }

/-- Whatever a document of some kind is read as is tidy. -/
theorem Statement.keeps_read (kind : StatementKind) :
  Keeps Statement.IsTidy (Statement.read kind n)
  := by
  unfold Statement.read
  split
  case h_1 => exact (CreateKeyspace.keeps_read hn).map fun _ hs => hs
  case h_2 => exact (AlterKeyspace.keeps_read hn).map fun _ hs => hs
  case h_6 => exact (CreateTable.keeps_read hn).map fun _ hs => hs
  case h_7 => exact (AlterTable.keeps_read hn).map fun _ hs => hs
  case h_10 => exact (CreateIndex.keeps_read hn).map fun _ hs => hs
  case h_11 => exact (DropIndex.keeps_read hn).map fun _ hs => hs
  case h_12 => exact (CreateView.keeps_read hn).map fun _ hs => hs
  case h_14 => exact (hn.readsTidy.query _ Select.isTidy_blank).map fun _ hs => hs
  case h_15 => exact (Insert.keeps_read hn).map fun _ hs => hs
  case h_16 => exact (Update.keeps_read hn).map fun _ hs => hs
  case h_17 => exact (Delete.keeps_read hn).map fun _ hs => hs
  all_goals exact ⟨fun _ => trivial⟩

theorem Statement.isTidy_of_ofNode {s : Statement} (h : Statement.ofNode n = .ok s) :
  s.IsTidy
  := by
  unfold Statement.ofNode at h
  obtain ⟨name, -, h⟩ := exists_of_bind_eq_ok h
  by_cases hname : name = ""
  · rw [if_pos hname] at h
    cases h
  · rw [if_neg hname] at h
    dsimp only at h
    split at h
    · cases h
    next kind _ =>
      split at h
      next hresult =>
        cases h
        exact (Statement.keeps_read hn.settledRecord kind).of_result hresult
      next => cases h

end

theorem Statement.isSpelled_of_documentOf {text : String} {j : Json}
    (h : Statement.documentOf text = .ok j) :
  j.IsSpelled
  := by
  unfold Statement.documentOf at h
  dsimp only at h
  split at h
  next item hread =>
    cases h
    have hspelled := Json.isSpelled_of_read hread
    exact Json.isSpelled_array_iff.mp hspelled j List.mem_cons_self
  next => cases h
  next hread =>
    cases h
    exact Json.isSpelled_of_read hread
  next =>
    split at h <;> cases h

theorem Statement.isTidy_of_ofText {text : String} {s : Statement}
    (h : Statement.ofText text = .ok s) :
  s.IsTidy
  := by
  obtain ⟨j, hj, h⟩ := exists_of_bind_eq_ok h
  apply Statement.isTidy_of_ofNode _ h
  exact isDocument_ofJson (Statement.isSpelled_of_documentOf hj)

end CqlGateway

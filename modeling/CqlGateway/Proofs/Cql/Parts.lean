import CqlGateway.Proofs.Cql.Clause

/-!
# The statements that a rendering is made of

A rendering is made of one statement for each row of an insertion, for each table that is dropped
and for each action of an alteration; in all other cases it is a single statement. Each of them is
a clause of the verb of the operation.
-/

namespace CqlGateway

open Cql (Phrase)

variable {raw : String → Prop} {options : RenderingOptions} {text : String} {d : Draft String}

/-! ### Renderings and drafts -/

namespace Statement

/-- A statement is rendered as the given text. -/
def RendersAs (options : RenderingOptions) (s : Statement) (text : String) : Prop :=
  ∃ r, s.render options = .ok r ∧ r.text = text

theorem RendersAs.yields {s : Statement} (h : s.RendersAs options text) :
  ∃ d, s.normalize.family.draft? options s.normalize = some d ∧ d.Yields text
  := by
  obtain ⟨r, hr, rfl⟩ := h
  unfold render renderNormalized Family.render at hr
  split at hr
  next => cases hr
  next r' hfamily =>
    split at hfamily
    next => cases hfamily
    next d hd =>
      split at hfamily
      next hdraft =>
        cases hfamily
        split at hr
        next => cases hr
        next =>
          cases hr
          exact ⟨d, hd, Draft.rendering_eq_ok hdraft⟩
      next => cases hfamily

theorem rendersAs_of_yields {s : Statement}
    (hd : s.normalize.family.draft? options s.normalize = some d) (h : d.Yields text)
    (hne : text ≠ "") :
  s.RendersAs options text
  := by
  obtain ⟨r, hr, rfl⟩ := h.rendering
  exact ⟨r, by simp [render, renderNormalized, Family.render, hd, hr, hne], rfl⟩

end Statement

/-! ### Rows -/

namespace Insert

variable {s : Insert} {row : List Expr}

/-- A row is rendered in the same way whatever its number. -/
theorem yields_rowCql {number : Nat} :
  (s.rowCql number row).Yields text
    ↔ row.length = s.columns.length
      ∧ ∃ values, (Draft.each Expr.valueCql row).Yields values
        ∧ text = "INSERT INTO " ++ s.table.cql ++ " (" ++ Cql.quoteIdentifiers s.columns
          ++ ") VALUES " ++ Expr.enclosed "(" ")" values
  := by
  simp only [rowCql, Draft.yields_bind, Draft.yields_pure, Draft.yields_rejectIf,
    decide_eq_false_iff_not, not_not]
  constructor
  · rintro ⟨-, hlength, h⟩
    exact ⟨hlength, h⟩
  · rintro ⟨hlength, h⟩
    exact ⟨(), hlength, h⟩

theorem yields_rowsCql {number : Nat} {rows : List (List Expr)} {parts : List String} :
  (s.rowsCql number rows).Yields parts
    ↔ List.Forall₂ (fun row part => (s.rowCql 1 row).Yields part) rows parts
  := by
  induction rows generalizing number parts with
  | nil => simp [rowsCql]
  | cons row rows ih =>
    simp only [rowsCql, Draft.yields_bind, Draft.yields_pure, ih, List.forall₂_cons_left_iff,
      yields_rowCql]
    constructor
    · rintro ⟨part, hpart, parts, hparts, rfl⟩
      exact ⟨part, parts, hpart, hparts, rfl⟩
    · rintro ⟨part, parts, hpart, hparts, rfl⟩
      exact ⟨part, hpart, parts, hparts, rfl⟩

/-- The text of an insertion, given the statements of its rows. -/
def textOf : List String → String
  | [part] => part
  | parts => batchCql parts

theorem yields_cql :
  s.cql.Yields text
    ↔ s.table.name ≠ "" ∧ s.query = none ∧ s.columns ≠ []
      ∧ ∃ rows parts, Insert.rows s.values = .ok rows ∧ rows ≠ []
        ∧ List.Forall₂ (fun row part => (s.rowCql 1 row).Yields part) rows parts
        ∧ text = textOf parts
  := by
  have htext (parts : List String) :
      (match parts with
        | [statement] => pure statement
        | statements => do
          Draft.warn (.expandedRows statements.length)
          return batchCql statements : Draft String).Yields text ↔ text = textOf parts := by
    match parts with
    | [part] => simp [textOf]
    | [] => simp [textOf]
    | _ :: _ :: _ => simp [textOf]
  simp only [cql, Draft.yields_bind, Draft.yields_rejectIf, Draft.yields_ofExcept,
    yields_rowsCql, decide_eq_false_iff_not, Option.isSome_eq_false_iff, Option.isNone_iff_eq_none,
    List.isEmpty_eq_false_iff]
  constructor
  · rintro ⟨-, htable, -, hquery, -, hcolumns, rows, hrows, -, hne, parts, hparts, h⟩
    exact ⟨htable, hquery, hcolumns, rows, parts, hrows, hne, hparts, (htext parts).mp h⟩
  · rintro ⟨htable, hquery, hcolumns, rows, parts, hrows, hne, hparts, h⟩
    exact ⟨(), htable, (), hquery, (), hcolumns, rows, hrows, (), hne, parts, hparts,
      (htext parts).mpr h⟩

/-- The values of an insertion of a single row. -/
def rowNode (row : List Expr) : Node :=
  .expr (.list [.list row])

/-- An expression that is rendered is no query. -/
theorem kind?_of_yields {e : Expr} (h : e.valueCql.Yields text) :
  e.kind? ≠ some .subquery
  := by
  cases e with
  | missing => simp [Expr.kind?]
  | of t =>
    intro hkind
    have hkind : t.kind = .subquery := Option.some.inj hkind
    rw [Expr.valueCql_of, Expr.cql_of, hkind] at h
    simp at h

/-- A row that is rendered is the only row of its node. -/
theorem rows_rowNode (h : (s.rowCql 1 row).Yields text) :
  Insert.rows (rowNode row) = .ok [row]
  := by
  obtain ⟨-, values, hvalues, -⟩ := yields_rowCql.mp h
  rw [Draft.yields_each] at hvalues
  have hplain : ∀ e ∈ row, e.kind? ≠ some .subquery := by
    clear h
    induction hvalues with
    | nil =>
      intro e he
      cases he
    | cons hvalue _ ih =>
      rw [List.forall_mem_cons]
      exact ⟨kind?_of_yields hvalue, ih⟩
  have hcells : plainCells row = .ok row := by
    simpa [plainCells] using hplain
  have hrow (items : List Expr) : isRow (.expr (.list items)) = true := by
    simp [isRow, Node.type, Expr.list, Term.blank]
  have hrows : areRows [.expr (.list row)] = true := by
    simp [areRows, hrow]
  change rowsOfPlain (.expr (.list [.list row])) = .ok [row]
  rw [rowsOfPlain, if_pos (hrow _), rowsOfList]
  change (if areRows [.expr (.list row)] then List.mapM cells [.expr (.list row)] else _) = _
  rw [if_pos hrows]
  change (do return [← plainCells row]) = _
  rw [hcells]
  rfl

/-- A row is rendered alone as it is among others. -/
theorem rendersAs_rowNode (htable : s.table.name ≠ "") (hquery : s.query = none)
    (hcolumns : s.columns ≠ []) (h : (s.rowCql 1 row).Yields text) :
  (Statement.insert { s with values := rowNode row }).RendersAs options text
  := by
  have hne : text ≠ "" := by
    obtain ⟨-, values, -, rfl⟩ := yields_rowCql.mp h
    simp [String.append_eq_empty_iff]
  have hsame : (rowCql { s with values := rowNode row } 1 row).Yields text := h
  apply Statement.rendersAs_of_yields rfl _ hne
  apply yields_cql.mpr
  exact ⟨htable, hquery, hcolumns, [row], [text], rows_rowNode h, by simp, .cons hsame .nil, rfl⟩

theorem clause_rows {rows : List (List Expr)} {parts : List String} (hcolumns : s.columns ≠ [])
    (hraw : ∀ e ∈ rows.flatten, ∀ t ∈ e.copiedTexts, raw t)
    (h : List.Forall₂ (fun row part => (s.rowCql 1 row).Yields part) rows parts) :
  ∀ p ∈ parts, Clause raw "INSERT" p
  := by
  induction h with
  | nil =>
    intro p hp
    cases hp
  | cons hhead _ ih =>
    rw [List.flatten_cons, List.forall_mem_append] at hraw
    rw [List.forall_mem_cons]
    exact ⟨clause_row hcolumns hraw.1 hhead, ih hraw.2⟩

end Insert

/-! ### Parts of statements -/

namespace Statement

/-- The statements that the rendering of a statement is made of: one for each row, one for each
table, one for each action of an alteration, and the rendering itself otherwise. The statement for
a row or a table is the rendering of the statement with this row or table alone. -/
def IsMadeOf (options : RenderingOptions) (s : Statement) (text : String) (parts : List String) :
    Prop :=
  match s with
  | .insert i =>
    ∃ rows, Insert.rows i.values = .ok rows
      ∧ List.Forall₂ (fun row part => Insert.rows (Insert.rowNode row) = .ok [row]
          ∧ (Statement.insert { i with values := Insert.rowNode row }).RendersAs options part)
        rows parts
  | .dropTable d =>
    List.Forall₂ (fun table part =>
        (Statement.dropTable { d with tables := some [table] }).RendersAs options part)
      (d.tables.getD []) parts
  | .alterTable a =>
    ∃ alterations, (Alterations.addAll a.table {} (a.specs.getD [])).Yields alterations
      ∧ parts = alterations.statements a.table
  | _ => parts = [text]

/-- The text that parts of a statement are put together to. -/
def textOf (s : Statement) (parts : List String) : String :=
  match s with
  | .insert _ => Insert.textOf parts
  | _ => sequenceCql parts

end Statement

/-! ### Tables and alterations -/

theorem DropTable.yields_cql {s : DropTable} :
  s.cql.Yields text
    ↔ s.tables.getD [] ≠ []
      ∧ ∃ parts, (Draft.each (dropTableCql s.ifExists) (s.tables.getD [])).Yields parts
        ∧ text = sequenceCql parts
  := by
  simp only [DropTable.cql, Draft.yields_bind, Draft.yields_pure, Draft.yields_rejectIf,
    List.isEmpty_eq_false_iff]
  constructor
  · rintro ⟨-, hne, h⟩
    exact ⟨hne, h⟩
  · rintro ⟨hne, h⟩
    exact ⟨(), hne, h⟩

/-- A table is dropped alone as it is among others. -/
theorem DropTable.rendersAs_one {s : DropTable} {table : TableName}
    (h : (dropTableCql s.ifExists table).Yields text) :
  (Statement.dropTable { s with tables := some [table] }).RendersAs options text
  := by
  have hne : text ≠ "" := by
    simp only [dropTableCql, Draft.yields_bind, Draft.yields_pure] at h
    obtain ⟨-, -, rfl⟩ := h
    simp [String.append_eq_empty_iff]
  apply Statement.rendersAs_of_yields rfl _ hne
  apply DropTable.yields_cql.mpr
  exact ⟨by simp, [text], (Draft.yields_each _ _ _).mpr (.cons h .nil), rfl⟩

/-- A statement that changes a table is rendered as the statements that its alterations come to, at
least one of them. -/
theorem AlterTable.statements_of_yields {s : AlterTable} (h : s.cql.Yields text) :
  ∃ alterations, (Alterations.addAll s.table {} (s.specs.getD [])).Yields alterations
    ∧ alterations.statements s.table ≠ []
    ∧ (∀ p ∈ alterations.statements s.table, Clause raw "ALTER" p)
    ∧ text = sequenceCql (alterations.statements s.table)
  := by
  simp only [AlterTable.cql, Draft.yields_bind, Draft.yields_pure, Draft.yields_rejectIf,
    List.isEmpty_eq_false_iff] at h
  obtain ⟨-, -, -, hne, alterations, hyields, rfl⟩ := h
  have hstart : Alterations.Phrased raw {} := by
    constructor <;> simp
  obtain ⟨hphrased, hcount⟩ := Alterations.phrased_addAll hstart hyields
  refine ⟨alterations, hyields, ?_, Alterations.clause_statements hphrased, rfl⟩
  apply Alterations.statements_ne_nil
  rw [hcount]
  have hlength := List.length_pos_iff.mpr hne
  omega

/-! ### Statements of any kind -/

theorem Describe.eq_cql_of_draft? {s : Describe}
    (hd : (Statement.describe s).family.draft? options (.describe s) = some d) (h : d.Yields text) :
  ∃ s' : Describe, text = s'.cql
  := by
  unfold Statement.family Family.draft? at hd
  cases hlists : s.listsKeyspaces with
  | true =>
    simp only [hlists, if_true, Option.some.injEq] at hd
    subst hd
    exact ⟨_, (Draft.yields_pure _ _).mp h⟩
  | false =>
    simp only [hlists, Bool.false_eq_true, if_false, Option.some.injEq] at hd
    subst hd
    exact ⟨_, (Draft.yields_pure _ _).mp h⟩

theorem defaultLimit_pos (setting : Int) :
  0 < defaultLimit setting
  := by
  unfold defaultLimit standardLimit
  split <;> omega

/-- What the draft of a statement yields is made of clauses of the verb of the operation. -/
theorem Statement.exists_parts_of_yields {s : Statement} (hraw : ∀ t ∈ s.copiedTexts options, raw t)
    (hd : s.normalize.family.draft? options s.normalize = some d) (hyields : d.Yields text) :
  ∃ parts, s.IsMadeOf options text parts ∧ parts ≠ []
    ∧ (∀ p ∈ parts, Clause raw s.operation.verb p) ∧ text = s.textOf parts
  := by
  have hsingle (hmade : s.IsMadeOf options text [text]) (htext : text = s.textOf [text])
      (hclause : Clause raw s.operation.verb text) :
      ∃ parts, s.IsMadeOf options text parts ∧ parts ≠ []
        ∧ (∀ p ∈ parts, Clause raw s.operation.verb p) ∧ text = s.textOf parts :=
    ⟨[text], hmade, by simp, by simpa using hclause, htext⟩
  have hexprs (hs : s.copiedTexts options = s.renderedExprs.flatMap (·.copiedTexts)) :
      ∀ e ∈ s.renderedExprs, ∀ t ∈ e.copiedTexts, raw t := by
    rw [hs] at hraw
    intro e he t ht
    apply hraw t (List.mem_flatMap.mpr ⟨e, he, ht⟩)
  cases s with
  | createKeyspace s =>
    cases hd
    apply hsingle rfl rfl (CreateKeyspace.clause (hraw _ (by simp [copiedTexts])) hyields)
  | alterKeyspace s =>
    cases hd
    apply hsingle rfl rfl (AlterKeyspace.clause (hraw _ (by simp [copiedTexts])) hyields)
  | dropKeyspace s =>
    cases hd
    apply hsingle rfl rfl (DropKeyspace.clause hyields)
  | use s =>
    cases hd
    apply hsingle rfl rfl (Use.clause hyields)
  | describe s =>
    obtain ⟨s', rfl⟩ := Describe.eq_cql_of_draft? hd hyields
    apply hsingle rfl rfl (Describe.clause s')
  | createTable s =>
    cases hd
    apply hsingle rfl rfl (CreateTable.clause hyields)
  | alterTable s =>
    cases hd
    obtain ⟨alterations, hadd, hne, hclauses, rfl⟩ := AlterTable.statements_of_yields hyields
    exact ⟨_, ⟨alterations, hadd, rfl⟩, hne, hclauses, rfl⟩
  | dropTable s =>
    cases hd
    obtain ⟨hne, parts, hparts, rfl⟩ := DropTable.yields_cql.mp hyields
    refine ⟨parts, ?_, Draft.ne_nil_of_each hparts hne, ?_, rfl⟩
    · apply ((Draft.yields_each _ _ _).mp hparts).imp
      intro table part
      apply DropTable.rendersAs_one
    · refine Draft.forall_of_each ?_ hparts
      intro table _ part
      apply clause_dropTable
  | truncateTable s =>
    cases hd
    apply hsingle rfl rfl (TruncateTable.clause hyields)
  | createIndex s =>
    cases hd
    apply hsingle rfl rfl (CreateIndex.clause hyields)
  | dropIndex s =>
    cases hd
    apply hsingle rfl rfl (DropIndex.clause hyields)
  | createView s =>
    cases hd
    apply hsingle rfl rfl (CreateView.clause (hexprs rfl) hyields)
  | dropView s =>
    cases hd
    apply hsingle rfl rfl (DropView.clause hyields)
  | select s =>
    cases hd
    apply hsingle rfl rfl (Select.clause (defaultLimit_pos _) (hexprs rfl) hyields)
  | insert s =>
    cases hd
    obtain ⟨htable, hquery, hcolumns, rows, parts, hrows, hne, hparts, rfl⟩ :=
      Insert.yields_cql.mp hyields
    have hraw := hexprs rfl
    simp only [renderedExprs, hrows] at hraw
    refine ⟨parts, ⟨rows, hrows, ?_⟩, ?_, Insert.clause_rows hcolumns hraw hparts, rfl⟩
    · apply hparts.imp
      intro row part hpart
      exact ⟨Insert.rows_rowNode hpart,
        Insert.rendersAs_rowNode htable hquery hcolumns hpart⟩
    · rintro rfl
      cases hparts
      apply hne rfl
  | update s =>
    cases hd
    apply hsingle rfl rfl (Update.clause (hexprs rfl) hyields)
  | delete s =>
    cases hd
    apply hsingle rfl rfl (Delete.clause (hexprs rfl) hyields)

/-- A rendering is made of clauses of the verb of the operation. -/
theorem Statement.exists_parts {s : Statement} (hraw : ∀ t ∈ s.copiedTexts options, raw t)
    (h : s.RendersAs options text) :
  ∃ parts, s.IsMadeOf options text parts ∧ parts ≠ []
    ∧ (∀ p ∈ parts, Clause raw s.operation.verb p) ∧ text = s.textOf parts
  := by
  obtain ⟨d, hd, hyields⟩ := h.yields
  apply exists_parts_of_yields hraw hd hyields

end CqlGateway

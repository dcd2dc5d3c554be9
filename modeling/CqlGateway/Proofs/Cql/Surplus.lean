import CqlGateway.Proofs.Cql.Report

/-!
# Clauses that CQL has no place for

A query can have further sources, groups, a set operation and an offset; a view, a change of rows
and an index can have clauses that only other dialects give them. Such a clause is left out of the
text, and a warning reports it. Main statement: a statement that carries a single one of these
clauses is rendered differently without it, except for the clauses that are overlooked: a set
operation, `DISTINCT`, a limit and an offset of a view, and a source of an update or a deletion
that is another table than the one that is changed.
-/

namespace CqlGateway

open Draft (Raises Reports raises_each raises_pure raises_reject raises_rejectIf_bind
  raises_warnIf_bind rendering_eq_ok reports_warnIf_bind warnIf yields_bind)
open Warning (IsOfExpression IsOrdinary)

/-! ### Clauses -/

/-- A clause that CQL has no place for, at least in some statements. -/
inductive Surplus where
  | sources
  | distinct
  | groupBy
  | having
  | setOperation
  | orderBy
  | limit
  | offset
  | unique
  | filter
  | included
  | descending
  | columns
  deriving DecidableEq, Repr

namespace Limit

/-- The limit of a pair without its offset; any other limit as it is. -/
def withoutOffset (n : Node) : Node :=
  match pairItems? n with
  | some (first :: second :: rest) =>
    let count := if separator n = "offset" then first else (second :: rest).getLastD first
    .object [("value", .list [count])]
  | _ => n

end Limit

namespace Select

/-- Whether a query carries a clause that queries in CQL do not have. -/
def carries (s : Select) : Surplus → Bool
  | .sources => 1 < (s.sources.getD []).length
  | .groupBy => !s.groupBy.isEmpty
  | .having => s.having.isPresent
  | .setOperation => s.setOperation ≠ ""
  | .offset => (Limit.ofNode s.limit).hasOffset || !s.offset.isNull
  | _ => false

/-- A query without a clause. -/
def without (s : Select) : Surplus → Select
  | .sources => { s with sources := s.sources.map (·.take 1) }
  | .distinct => { s with distinct := false }
  | .groupBy => { s with groupBy := [] }
  | .having => { s with having := .missing }
  | .setOperation => { s with setOperation := "" }
  | .orderBy => { s with orderBy := [] }
  | .limit => { s with limit := .null }
  | .offset => { s with limit := Limit.withoutOffset s.limit, offset := .null }
  | _ => s

end Select

namespace CreateView

/-- Whether a view carries a clause that views in CQL do not have. -/
def carries (s : CreateView) (c : Surplus) : Bool :=
  match s.definition with
  | none => false
  | some query =>
    match c with
    | .distinct => query.distinct
    | .orderBy => !query.orderBy.isEmpty
    | .limit => Limit.isGiven query.limit
    | c => query.carries c

/-- A view without a clause of its query. -/
def without (s : CreateView) (c : Surplus) : CreateView :=
  { s with definition := s.definition.map (·.without c) }

end CreateView

/-- Whether a change of the rows of a table carries a clause that changes in CQL do not have: a
source other than the table, an order or a limit. -/
def mutationCarries (table : TableName) (sources : List TableRef) (orderBy : List OrderItem)
    (limit : Node) : Surplus → Bool
  | .sources => sources.any (·.table ≠ table)
  | .orderBy => !orderBy.isEmpty
  | .limit => Limit.isGiven limit
  | _ => false

/-- An update without a clause. -/
def Update.without (s : Update) : Surplus → Update
  | .sources => { s with sources := s.sources.filter (·.table = s.table) }
  | .orderBy => { s with orderBy := [] }
  | .limit => { s with limit := .null }
  | _ => s

/-- A deletion without a clause. -/
def Delete.without (s : Delete) : Surplus → Delete
  | .sources => { s with sources := s.sources.filter (·.table = s.table) }
  | .orderBy => { s with orderBy := [] }
  | .limit => { s with limit := .null }
  | _ => s

namespace CreateIndex

/-- Whether an index carries a clause that indexes in CQL do not have. -/
def carries (s : CreateIndex) : Surplus → Bool
  | .unique => s.unique
  | .filter => s.filter.isPresent
  | .included => !s.included.isEmpty
  | .descending => (s.columns.getD []).any (·.desc)
  | .columns => 1 < (s.columns.getD []).length
  | _ => false

/-- An index without a clause. -/
def without (s : CreateIndex) : Surplus → CreateIndex
  | .unique => { s with unique := false }
  | .filter => { s with filter := .missing }
  | .included => { s with included := [] }
  | .descending => { s with columns := s.columns.map (·.map ({ · with desc := false })) }
  | .columns => { s with columns := s.columns.map (·.take 1) }
  | _ => s

end CreateIndex

namespace Statement

/-- Whether a statement carries a clause that CQL has no place for. -/
def carries : Statement → Surplus → Bool
  | .select s => s.carries
  | .createView s => s.carries
  | .update s => mutationCarries s.table s.sources s.orderBy s.limit
  | .delete s => mutationCarries s.table s.sources s.orderBy s.limit
  | .createIndex s => s.carries
  | _ => fun _ => false

/-- A statement without a clause. -/
def without : Statement → Surplus → Statement
  | .select s, c => .select (s.without c)
  | .createView s, c => .createView (s.without c)
  | .update s, c => .update (s.without c)
  | .delete s, c => .delete (s.without c)
  | .createIndex s, c => .createIndex (s.without c)
  | s, _ => s

/-- The clauses that are left out without a report. -/
def overlooks : Statement → Surplus → Bool
  | .createView _, .setOperation | .createView _, .distinct | .createView _, .limit
  | .createView _, .offset => true
  | .update _, .sources | .delete _, .sources => true
  | _, _ => false

/-- A statement carries a clause and no other that CQL has no place for. -/
def CarriesOnly (s : Statement) (c : Surplus) : Prop :=
  ∀ d, s.carries d = true ↔ d = c

end Statement

/-! ### What is raised without a clause -/

/-- A warning that is not raised need not be ordinary. -/
theorem isOrdinary_of_not {condition : Bool} {w : Warning} (h : condition = false) :
  condition = true → w.IsOrdinary
  := by
  rintro rfl
  cases h

/-- A statement warns of its sources only if there are several. -/
theorem raises_baseTable (statement : String) {sources : List TableRef} {P : Warning → Prop}
    (h : 1 < sources.length → ∀ kept, P (.joinedSource kept) ∧ P (.furtherSources kept)) :
  (baseTable statement sources).Raises P
  := by
  cases sources with
  | nil => apply raises_reject
  | cons first rest =>
    apply raises_rejectIf_bind
    apply raises_rejectIf_bind
    apply raises_warnIf_bind
    · intro hrest
      obtain ⟨hjoined, hfurther⟩ := h (by simpa [List.length_pos_iff] using hrest) _
      split
      · exact hjoined
      · exact hfurther
    · apply raises_pure

theorem raises_columnsCql (columns : List SelectColumn) :
  (columnsCql columns).Raises IsOfExpression
  := by
  rw [columnsCql]
  split
  · apply raises_pure
  · apply Raises.map
    apply raises_each
    intro c _
    apply (Expr.raises_cql c.expr).map

namespace Limit

theorem pairItems?_single (n : Node) :
  pairItems? (.object [("value", .list [n])]) = some [n]
  := by
  have htype : Node.objectType [("value", .list [n])] = "" := by
    simp [Node.objectType, Node.textOf?, Node.lookup?, Text.lower]
  simp [pairItems?, htype, Node.lookup?, Node.items?]

/-- Without its offset a limit has the same count. -/
theorem ofNode_withoutOffset (n : Node) :
  ofNode (withoutOffset n) = ⟨(ofNode n).count?, false⟩
  := by
  rcases h : pairItems? n with _ | _ | ⟨first, _ | ⟨second, rest⟩⟩
  · rw [withoutOffset, h, ofNode, h]
    dsimp only
    split <;> rfl
  · rw [withoutOffset, h, ofNode, h]
  · rw [withoutOffset, h, ofNode, h]
  · rw [withoutOffset, h, ofNode, pairItems?_single, ofNode, h]
    dsimp only
    split <;> rfl

theorem isGiven_withoutOffset (n : Node) :
  isGiven (withoutOffset n) = isGiven n
  := by
  rw [withoutOffset]
  split
  next first second rest h =>
    rw [isGiven, pairItems?_single, isGiven, h]
    rfl
  next => rfl

end Limit

namespace Select

theorem raises_filterCql (filter : Expr) :
  (filterCql filter).Raises IsOfExpression
  := by
  rw [filterCql]
  split
  · apply (Expr.raises_cql filter).map
  · apply raises_pure

theorem raises_orderCql (orderBy : List OrderItem) :
  (orderCql orderBy).Raises fun w => w.IsOfExpression ∨ w = .unvalidatedOrder
  := by
  rw [orderCql]
  split
  · apply raises_pure
  · apply Raises.bind
    · apply raises_each
      intro o _
      exact ((Expr.raises_cql o.expr).mono fun _ => .inl).map _
    · intro items _
      refine Draft.raises_warn_bind (.inr rfl) ?_
      apply raises_pure

theorem raises_limitOf (default : Int) {s : Select} (h : s.carries .offset = false) :
  (s.limitOf default).Raises IsOrdinary
  := by
  have hoffset (count : Int) : Raises IsOrdinary do
      let count ← pure count
      warnIf (s.carries .offset) .offset
      return count := by
    rw [h]
    apply raises_pure
  rw [limitOf]
  split
  · apply hoffset
  · refine raises_warnIf_bind (fun _ => True.intro) ?_
    apply hoffset

/-- A query that carries no clause that queries in CQL do not have raises ordinary warnings. -/
theorem raises_cql (default : Int) {s : Select} (h : ∀ c, s.carries c = false) :
  (s.cql default).Raises IsOrdinary
  := by
  apply Raises.bind
  · apply raises_baseTable
    intro hseveral
    have hsources := h .sources
    simp [carries, hseveral] at hsources
  intro table _
  apply ((raises_columnsCql s.columns).mono fun _ => IsOfExpression.isOrdinary).bind
  intro columns _
  refine raises_warnIf_bind (fun _ => True.intro) ?_
  apply ((raises_filterCql s.filter).mono fun _ => IsOfExpression.isOrdinary).bind
  intro filter _
  apply raises_warnIf_bind (isOrdinary_of_not (h .groupBy))
  apply raises_warnIf_bind (isOrdinary_of_not (h .having))
  apply raises_warnIf_bind (isOrdinary_of_not (h .setOperation))
  have horder (w : Warning) (hw : w.IsOfExpression ∨ w = .unvalidatedOrder) : w.IsOrdinary := by
    rcases hw with hw | rfl
    · exact hw.isOrdinary
    · exact True.intro
  apply ((raises_orderCql s.orderBy).mono horder).bind
  intro order _
  apply (raises_limitOf default (h .offset)).map

end Select

theorem raises_viewFilterCql (filter : Expr) (keyed : Bool) (key : String) :
  (viewFilterCql filter keyed key).Raises IsOrdinary
  := by
  rw [viewFilterCql]
  split
  · apply raises_pure
  · exact ((Expr.raises_cql filter).mono fun _ => IsOfExpression.isOrdinary).map _

theorem CreateView.raises_cql {s : CreateView} (h : ∀ c, s.carries c = false) :
  s.cql.Raises IsOrdinary
  := by
  apply raises_rejectIf_bind
  split
  next => apply raises_reject
  next query hquery =>
    simp only [carries, hquery] at h
    apply Raises.bind
    · apply raises_baseTable
      intro hseveral
      have hsources := h .sources
      simp [Select.carries, hseveral] at hsources
    intro base _
    apply ((raises_columnsCql query.columns).mono fun _ => IsOfExpression.isOrdinary).bind
    intro columns _
    refine raises_warnIf_bind (fun _ => rfl) ?_
    apply (raises_viewFilterCql query.filter _ _).bind
    intro filter _
    apply raises_warnIf_bind
    · apply isOrdinary_of_not
      rw [Bool.or_eq_false_iff]
      apply And.intro (h .groupBy) (h .having)
    apply raises_warnIf_bind (isOrdinary_of_not (h .orderBy))
    refine raises_warnIf_bind (fun _ => True.intro) ?_
    apply raises_pure

section Mutation

theorem raises_requireSingleSource (statement : String) (sources : List TableRef) :
  (requireSingleSource statement sources).Raises IsOrdinary
  := by
  apply raises_rejectIf_bind
  apply Draft.raises_rejectIf

theorem raises_mutationFilterCql (statement : String) (table : TableName) (filter : Expr) :
  (mutationFilterCql statement table filter).Raises IsOrdinary
  := by
  cases filter with
  | missing => apply raises_reject
  | of t => exact (Expr.raises_cql _).mono fun _ => IsOfExpression.isOrdinary

variable {table : TableName} {sources : List TableRef} {orderBy : List OrderItem} {limit : Node}

theorem raises_warnOrderAndLimit (statement : String)
    (h : ∀ c, mutationCarries table sources orderBy limit c = false) :
  (warnOrderAndLimit statement orderBy limit).Raises IsOrdinary
  := by
  apply raises_warnIf_bind (isOrdinary_of_not (h .orderBy))
  apply Draft.raises_warnIf (isOrdinary_of_not (h .limit))

end Mutation

theorem Update.raises_cql {s : Update}
    (h : ∀ c, mutationCarries s.table s.sources s.orderBy s.limit c = false) :
  s.cql.Raises IsOrdinary
  := by
  apply raises_rejectIf_bind
  apply (raises_requireSingleSource _ _).bind
  intro _ _
  apply raises_rejectIf_bind
  apply (raises_mutationFilterCql _ _ _).bind
  intro filter _
  apply Raises.bind
  · apply raises_each
    intro a _
    apply raises_rejectIf_bind
    exact ((Expr.raises_valueCql a.value).mono fun _ => IsOfExpression.isOrdinary).map _
  intro parts _
  apply (raises_warnOrderAndLimit _ h).map

theorem Delete.raises_cql {s : Delete}
    (h : ∀ c, mutationCarries s.table s.sources s.orderBy s.limit c = false) :
  s.cql.Raises IsOrdinary
  := by
  apply raises_rejectIf_bind
  apply (raises_requireSingleSource _ _).bind
  intro _ _
  apply (raises_mutationFilterCql _ _ _).bind
  intro filter _
  apply (raises_warnOrderAndLimit _ h).map

theorem IndexColumn.raises_resolve {c : IndexColumn} (h : c.desc = false) :
  c.resolve.Raises IsOrdinary
  := by
  apply raises_warnIf_bind (isOrdinary_of_not h)
  split
  · apply raises_pure
  · split
    · apply raises_reject
    · split
      · apply raises_pure
      · rw [firstColumn]
        split
        · refine Draft.raises_warn_bind True.intro ?_
          apply raises_pure
        · apply raises_reject

theorem CreateIndex.raises_cql {s : CreateIndex} (h : ∀ c, s.carries c = false) :
  s.cql.Raises IsOrdinary
  := by
  apply raises_rejectIf_bind
  split
  next => apply raises_reject
  next first rest hcolumns =>
    have hrest : rest = [] := by
      simpa [carries, hcolumns] using h .columns
    have hdesc : first.desc = false := by
      have := h .descending
      simp only [carries, hcolumns, List.any_cons, Bool.or_eq_false_iff] at this
      apply this.1
    apply raises_warnIf_bind (isOrdinary_of_not (h .unique))
    apply raises_warnIf_bind (isOrdinary_of_not (by rw [hrest]; rfl))
    apply raises_warnIf_bind (isOrdinary_of_not (h .filter))
    apply raises_warnIf_bind (isOrdinary_of_not (h .included))
    apply (IndexColumn.raises_resolve hdesc).map

/-! ### What is reported of a clause -/

theorem reports_baseTable (statement : String) {sources : List TableRef}
    (h : 1 < sources.length) :
  (baseTable statement sources).Reports (baseTable statement (sources.take 1))
  := by
  rcases sources with _ | ⟨first, _ | ⟨second, rest⟩⟩
  · simp at h
  · simp at h
  · refine .behind _ fun _ => ?_
    refine .behind _ fun _ => ?_
    apply Reports.bind
    apply Draft.reports_warnIf _ rfl rfl
    split <;> exact True.intro

namespace Select

theorem reports_limitOf (default : Int) {s : Select} (h : s.carries .offset = true) :
  (s.limitOf default).Reports ((s.without .offset).limitOf default)
  := by
  have hoffset (count : Int) : Reports
      (do
        let count ← pure count
        warnIf (s.carries .offset) .offset
        return count)
      (do
        let count ← pure count
        warnIf (false || !Node.null.isNull) .offset
        return count) := by
    refine .behind _ fun _ => ?_
    exact reports_warnIf_bind True.intro h rfl
  rw [limitOf, limitOf]
  simp only [without, Limit.ofNode_withoutOffset, Limit.isGiven_withoutOffset]
  split
  · apply hoffset
  · refine .behind _ fun _ => ?_
    apply hoffset

theorem sources_without (s : Select) :
  (s.without .sources).sources.getD [] = (s.sources.getD []).take 1
  := by
  cases h : s.sources <;> simp [without, h]

/-- The clauses of a query that queries in CQL do not have are reported. -/
theorem reports_cql (default : Int) {s : Select} {c : Surplus} (h : s.carries c = true) :
  (s.cql default).Reports ((s.without c).cql default)
  := by
  cases c with
  | sources =>
    rw [cql, cql, sources_without]
    apply Reports.bind
    apply reports_baseTable
    simpa [carries] using h
  | groupBy =>
    iterate 4 refine .behind _ fun _ => ?_
    exact reports_warnIf_bind True.intro h rfl
  | having =>
    iterate 5 refine .behind _ fun _ => ?_
    exact reports_warnIf_bind True.intro h rfl
  | setOperation =>
    iterate 6 refine .behind _ fun _ => ?_
    exact reports_warnIf_bind True.intro h rfl
  | offset =>
    iterate 8 refine .behind _ fun _ => ?_
    apply Reports.bind
    apply reports_limitOf default h
  | _ => cases h

end Select

/-- The clauses of a view that views in CQL do not have are reported, unless they are
overlooked. -/
theorem CreateView.reports_cql {s : CreateView} {c : Surplus} (h : s.carries c = true)
    (hc : (Statement.createView s).overlooks c = false)
    (hother : ∀ d, d ≠ c → s.carries d = false) :
  s.cql.Reports (s.without c).cql
  := by
  obtain ⟨query, hquery⟩ : ∃ query, s.definition = some query := by
    cases hs : s.definition with
    | none =>
      rw [carries, hs] at h
      cases h
    | some query => use query
  have hwithout : (s.without c).definition = some (query.without c) := by
    rw [without, hquery]
    rfl
  simp only [carries, hquery] at h hother
  rw [cql, cql, hwithout, hquery]
  refine .behind _ fun _ => ?_
  cases c with
  | sources =>
    dsimp only
    rw [Select.sources_without]
    apply Reports.bind
    apply reports_baseTable
    simpa [Select.carries] using h
  | groupBy =>
    have hhaving : query.having.isPresent = false := hother .having (by decide)
    iterate 4 refine .behind _ fun _ => ?_
    exact reports_warnIf_bind True.intro (Bool.or_eq_true_iff.mpr (.inl h)) hhaving
  | having =>
    have hgroup : (!query.groupBy.isEmpty) = false := hother .groupBy (by decide)
    iterate 4 refine .behind _ fun _ => ?_
    exact reports_warnIf_bind True.intro (Bool.or_eq_true_iff.mpr (.inr h))
      (Bool.or_eq_false_iff.mpr ⟨hgroup, rfl⟩)
  | orderBy =>
    iterate 5 refine .behind _ fun _ => ?_
    exact reports_warnIf_bind True.intro h rfl
  | distinct | setOperation | limit | offset => cases hc
  | unique | filter | included | descending | columns => cases h

section Mutation

variable {table : TableName} {sources : List TableRef} {orderBy : List OrderItem} {limit : Node}

theorem reports_warnOrder (statement : String)
    (h : mutationCarries table sources orderBy limit .orderBy = true) :
  (warnOrderAndLimit statement orderBy limit).Reports (warnOrderAndLimit statement [] limit)
  := by
  exact reports_warnIf_bind True.intro h rfl

theorem reports_warnLimit (statement : String)
    (h : mutationCarries table sources orderBy limit .limit = true) :
  (warnOrderAndLimit statement orderBy limit).Reports (warnOrderAndLimit statement orderBy .null)
  := by
  refine .behind _ fun _ => ?_
  exact Draft.reports_warnIf True.intro h rfl

end Mutation

theorem Update.reports_cql {s : Update} {c : Surplus}
    (h : mutationCarries s.table s.sources s.orderBy s.limit c = true)
    (hc : (Statement.update s).overlooks c = false) :
  s.cql.Reports (s.without c).cql
  := by
  cases c with
  | orderBy =>
    iterate 5 refine .behind _ fun _ => ?_
    apply Reports.bind
    apply reports_warnOrder _ h
  | limit =>
    iterate 5 refine .behind _ fun _ => ?_
    apply Reports.bind
    apply reports_warnLimit _ h
  | sources => cases hc
  | _ => cases h

theorem Delete.reports_cql {s : Delete} {c : Surplus}
    (h : mutationCarries s.table s.sources s.orderBy s.limit c = true)
    (hc : (Statement.delete s).overlooks c = false) :
  s.cql.Reports (s.without c).cql
  := by
  cases c with
  | orderBy =>
    iterate 3 refine .behind _ fun _ => ?_
    apply Reports.bind
    apply reports_warnOrder _ h
  | limit =>
    iterate 3 refine .behind _ fun _ => ?_
    apply Reports.bind
    apply reports_warnLimit _ h
  | sources => cases hc
  | _ => cases h

namespace CreateIndex

theorem exists_columns_of_yields {s : CreateIndex} {text : String} (h : s.cql.Yields text) :
  ∃ first rest, s.columns.getD [] = first :: rest
  := by
  rw [cql, yields_bind] at h
  obtain ⟨-, -, h⟩ := h
  cases hcolumns : s.columns.getD [] with
  | nil =>
    rw [hcolumns] at h
    cases Draft.yields_reject _ _ h
  | cons first rest => use first, rest

theorem columns_without_columns (s : CreateIndex) :
  (s.without .columns).columns.getD [] = (s.columns.getD []).take 1
  := by
  cases h : s.columns <;> simp [without, h]

theorem columns_without_descending (s : CreateIndex) :
  (s.without .descending).columns.getD [] = (s.columns.getD []).map ({ · with desc := false })
  := by
  cases h : s.columns <;> simp [without, h]

theorem reports_cql {s : CreateIndex} {c : Surplus} {text : String} (hs : s.cql.Yields text)
    (h : s.carries c = true) (hother : ∀ d, d ≠ c → s.carries d = false) :
  s.cql.Reports (s.without c).cql
  := by
  obtain ⟨first, rest, hcolumns⟩ := exists_columns_of_yields hs
  cases c with
  | unique =>
    have hsame : (s.without .unique).columns.getD [] = first :: rest := hcolumns
    rw [cql, cql, hcolumns, hsame]
    refine .behind _ fun _ => ?_
    exact reports_warnIf_bind True.intro h rfl
  | filter =>
    have hsame : (s.without .filter).columns.getD [] = first :: rest := hcolumns
    rw [cql, cql, hcolumns, hsame]
    iterate 3 refine .behind _ fun _ => ?_
    exact reports_warnIf_bind True.intro h rfl
  | included =>
    have hsame : (s.without .included).columns.getD [] = first :: rest := hcolumns
    rw [cql, cql, hcolumns, hsame]
    iterate 4 refine .behind _ fun _ => ?_
    exact reports_warnIf_bind True.intro h rfl
  | columns =>
    have hrest : (!rest.isEmpty) = true := by
      simpa [carries, hcolumns, List.length_pos_iff] using h
    rw [cql, cql, columns_without_columns, hcolumns]
    iterate 2 refine .behind _ fun _ => ?_
    exact reports_warnIf_bind True.intro hrest rfl
  | descending =>
    have hrest : rest = [] := by
      simpa [carries, hcolumns] using hother .columns (by decide)
    have hdesc : first.desc = true := by
      simpa [carries, hcolumns, hrest] using h
    rw [cql, cql, columns_without_descending, hcolumns, hrest]
    iterate 5 refine .behind _ fun _ => ?_
    apply Reports.bind
    exact reports_warnIf_bind True.intro hdesc rfl
  | _ => cases h

end CreateIndex

/-! ### What is overlooked -/

theorem CreateView.cql_without {s : CreateView} {c : Surplus}
    (hc : (Statement.createView s).overlooks c = true) :
  (s.without c).cql = s.cql
  := by
  cases hs : s.definition with
  | none =>
    rw [cql, cql, without, hs]
    rfl
  | some query =>
    rw [cql, cql, without, hs]
    cases c with
    | distinct | setOperation | limit | offset => rfl
    | _ => cases hc

/-- A change that reads from no further tables does not do so without some of its sources. -/
theorem requireSingleSource_filter {statement : String} {sources : List TableRef}
    (h : (requireSingleSource statement sources).Yields ()) (p : TableRef → Bool) :
  requireSingleSource statement (sources.filter p) = requireSingleSource statement sources
  := by
  rw [requireSingleSource, yields_bind] at h
  obtain ⟨_, hjoin, hcount⟩ := h
  rw [Draft.yields_rejectIf] at hjoin hcount
  have hjoin' : (sources.filter p).any (·.join ≠ "") = false := by
    rw [List.any_eq_false] at hjoin ⊢
    intro ref href
    apply hjoin ref (List.mem_of_mem_filter href)
  have hcount' : decide ((sources.filter p).length > 1) = false := by
    have := List.length_filter_le p sources
    simp only [decide_eq_false_iff_not] at hcount ⊢
    omega
  rw [requireSingleSource, requireSingleSource, hjoin, hjoin', hcount, hcount']

theorem Update.cql_without {s : Update} {text : String} (h : s.cql.Yields text) :
  (s.without .sources).cql = s.cql
  := by
  simp only [cql, yields_bind] at h
  obtain ⟨_, -, _, hsources, -⟩ := h
  rw [cql, cql, ← requireSingleSource_filter hsources (·.table = s.table)]
  rfl

theorem Delete.cql_without {s : Delete} {text : String} (h : s.cql.Yields text) :
  (s.without .sources).cql = s.cql
  := by
  simp only [cql, yields_bind] at h
  obtain ⟨_, -, _, hsources, -⟩ := h
  rw [cql, cql, ← requireSingleSource_filter hsources (·.table = s.table)]
  rfl

/-! ### What is carried without a clause -/

theorem Select.carries_without {s : Select} {c : Surplus} (h : s.carries c = true)
    (hother : ∀ d, d ≠ c → s.carries d = false) (d : Surplus) :
  (s.without c).carries d = false
  := by
  by_cases hd : d = c
  · rw [hd]
    cases c with
    | sources =>
      rw [carries, sources_without, decide_eq_false_iff_not, List.length_take]
      omega
    | offset => simp [carries, without, Limit.ofNode_withoutOffset, Node.isNull]
    | _ => rfl
  · have hs := hother d hd
    cases c with
    | sources | groupBy | having | setOperation | offset =>
      cases d <;> first | apply hs | apply absurd rfl hd
    | _ => cases h

theorem CreateView.carries_without {s : CreateView} {c : Surplus} (h : s.carries c = true)
    (hc : (Statement.createView s).overlooks c = false)
    (hother : ∀ d, d ≠ c → s.carries d = false) (d : Surplus) :
  (s.without c).carries d = false
  := by
  rcases s with ⟨name, orReplace, ifNotExists, definition⟩
  cases definition with
  | none => cases h
  | some query =>
    by_cases hd : d = c
    · rw [hd]
      cases c with
      | sources =>
        change (query.without .sources).carries .sources = false
        rw [Select.carries, Select.sources_without, decide_eq_false_iff_not, List.length_take]
        omega
      | distinct | setOperation | limit | offset => cases hc
      | _ => rfl
    · have hs := hother d hd
      cases c with
      | sources | groupBy | having | orderBy =>
        cases d <;> first | apply hs | apply absurd rfl hd
      | distinct | setOperation | limit | offset => cases hc
      | _ => cases h

theorem CreateIndex.carries_without {s : CreateIndex} {c : Surplus} (h : s.carries c = true)
    (hother : ∀ d, d ≠ c → s.carries d = false) (d : Surplus) :
  (s.without c).carries d = false
  := by
  by_cases hd : d = c
  · rw [hd]
    cases c with
    | columns =>
      rw [carries, columns_without_columns, decide_eq_false_iff_not, List.length_take]
      omega
    | descending => simp [carries, columns_without_descending]
    | _ => rfl
  · have hs := hother d hd
    cases c with
    | unique | filter | included =>
      cases d <;> first | apply hs | apply absurd rfl hd
    | columns =>
      cases d with
      | columns => cases hd rfl
      | descending =>
        rw [carries, List.any_eq_false] at hs
        rw [carries, columns_without_columns, List.any_eq_false]
        intro column hcolumn
        apply hs column (List.mem_of_mem_take hcolumn)
      | _ => apply hs
    | descending =>
      cases d with
      | descending => cases hd rfl
      | columns =>
        rw [carries, columns_without_descending, List.length_map]
        apply hs
      | _ => apply hs
    | _ => cases h

theorem Update.carries_without {s : Update} {c : Surplus}
    (h : (Statement.update s).carries c = true) (hc : (Statement.update s).overlooks c = false)
    (hother : ∀ d, d ≠ c → (Statement.update s).carries d = false) (d : Surplus) :
  (Statement.update (s.without c)).carries d = false
  := by
  by_cases hd : d = c
  · rw [hd]
    cases c with
    | sources => cases hc
    | _ => rfl
  · have hs := hother d hd
    cases c with
    | orderBy | limit => cases d <;> first | apply hs | apply absurd rfl hd
    | sources => cases hc
    | _ => cases h

theorem Delete.carries_without {s : Delete} {c : Surplus}
    (h : (Statement.delete s).carries c = true) (hc : (Statement.delete s).overlooks c = false)
    (hother : ∀ d, d ≠ c → (Statement.delete s).carries d = false) (d : Surplus) :
  (Statement.delete (s.without c)).carries d = false
  := by
  by_cases hd : d = c
  · rw [hd]
    cases c with
    | sources => cases hc
    | _ => rfl
  · have hs := hother d hd
    cases c with
    | orderBy | limit => cases d <;> first | apply hs | apply absurd rfl hd
    | sources => cases hc
    | _ => cases h

/-! ### Renderings without a clause -/

namespace Statement

variable {options : RenderingOptions} {s : Statement} {c : Surplus} {r : Rendering}

theorem render_eq_ok_iff {d : Draft String}
    (hd : s.normalize.family.draft? options s.normalize = some d) :
  s.render options = .ok r ↔ d.rendering = .ok r
  := by
  rcases render_of_draft hd with ⟨reason, rfl, hrender⟩ | ⟨text, warnings, rfl, -, hrender⟩
  · rw [hrender]
    constructor <;> rintro ⟨⟩
  · rw [hrender, Draft.rendering]
    constructor
    · rintro ⟨⟩
      rfl
    · rintro ⟨⟩
      rfl

/-- A clause that is overlooked does not show. -/
theorem render_without_of_overlooks (hc : s.overlooks c = true) (hr : s.render options = .ok r) :
  (s.without c).render options = .ok r
  := by
  cases s with
  | createView s =>
    rw [render_eq_ok_iff rfl] at hr ⊢
    rw [CreateView.cql_without hc]
    apply hr
  | update s =>
    cases c with
    | sources =>
      rw [render_eq_ok_iff rfl] at hr ⊢
      rw [Update.cql_without (rendering_eq_ok hr)]
      apply hr
    | _ => cases hc
  | delete s =>
    cases c with
    | sources =>
      rw [render_eq_ok_iff rfl] at hr ⊢
      rw [Delete.cql_without (rendering_eq_ok hr)]
      apply hr
    | _ => cases hc
  | _ => cases c <;> cases hc

theorem render_ne_of_reports {s' : Statement} {d d' : Draft String}
    (hd : s.normalize.family.draft? options s.normalize = some d)
    (hd' : s'.normalize.family.draft? options s'.normalize = some d')
    (hr : s.render options = .ok r) (h : d.Reports d')
    (hother : d'.Raises IsOrdinary) :
  ∃ r', s'.render options = .ok r' ∧ r' ≠ r
  := by
  rw [render_eq_ok_iff hd] at hr
  obtain ⟨r', hr', hne⟩ := h.rendering_ne hother hr
  use r', (render_eq_ok_iff hd').mpr hr'

/-- A clause that is not overlooked shows, if it is the only one of its kind. -/
theorem render_without_ne (h : s.carries c = true) (hother : ∀ d, d ≠ c → s.carries d = false)
    (hc : s.overlooks c = false) (hr : s.render options = .ok r) :
  ∃ r', (s.without c).render options = .ok r' ∧ r' ≠ r
  := by
  cases s with
  | select s =>
    apply render_ne_of_reports rfl rfl hr
    · apply Select.reports_cql _ h
    · apply Select.raises_cql _ (Select.carries_without h hother)
  | createView s =>
    apply render_ne_of_reports rfl rfl hr
    · apply CreateView.reports_cql h hc hother
    · apply CreateView.raises_cql (CreateView.carries_without h hc hother)
  | update s =>
    apply render_ne_of_reports rfl rfl hr
    · apply Update.reports_cql h hc
    · apply Update.raises_cql (Update.carries_without h hc hother)
  | delete s =>
    apply render_ne_of_reports rfl rfl hr
    · apply Delete.reports_cql h hc
    · apply Delete.raises_cql (Delete.carries_without h hc hother)
  | createIndex s =>
    have hs := rendering_eq_ok ((render_eq_ok_iff rfl).mp hr)
    apply render_ne_of_reports rfl rfl hr
    · apply CreateIndex.reports_cql hs h hother
    · apply CreateIndex.raises_cql (CreateIndex.carries_without h hother)
  | _ => cases h

/-- A clause that CQL has no place for and that a statement carries alone shows in the rendering
exactly if it is not overlooked. -/
theorem render_without (h : s.CarriesOnly c) (hr : s.render options = .ok r) :
  ∃ r', (s.without c).render options = .ok r' ∧ (r' = r ↔ s.overlooks c = true)
  := by
  have hcarries : s.carries c = true := (h c).mpr rfl
  have hother (d : Surplus) (hd : d ≠ c) : s.carries d = false := by
    rw [← Bool.not_eq_true, h d]
    apply hd
  cases hc : s.overlooks c with
  | true =>
    use r, render_without_of_overlooks hc hr
    simp
  | false =>
    obtain ⟨r', hr', hne⟩ := render_without_ne hcarries hother hc hr
    use r', hr'
    simp [hne]

/-- A query that skips rows: `SELECT * FROM events LIMIT 10 OFFSET 20`. -/
def laterEvents : Select :=
  { Select.blank with
    sources := some [{ TableRef.blank with table := ⟨"", "events"⟩ }]
    limit := .object [("seperator", .text "offset"), ("value", .list [.int 10, .int 20])] }

theorem render_without_laterEvents :
  (Statement.select laterEvents).CarriesOnly .offset
    ∧ ∃ r r', (Statement.select laterEvents).render {} = .ok r
      ∧ ((Statement.select laterEvents).without .offset).render {} = .ok r'
      ∧ (r' = r ↔ (Statement.select laterEvents).overlooks .offset = true)
  := by
  have honly : (Statement.select laterEvents).CarriesOnly .offset := by
    intro d
    cases d <;> decide
  have hrender : (Statement.select laterEvents).render {}
      = .ok ⟨"SELECT * FROM events LIMIT 10", ["OFFSET is not supported by CQL; dropped"]⟩ := by
    decide
  obtain ⟨r', hr', heq⟩ := render_without honly hrender
  exact ⟨honly, _, r', hrender, hr', heq⟩

/-- An update that reads from a second table:
`UPDATE orders SET status = 'paid' FROM payments WHERE id = 1`. -/
def paidOrders : Update where
  table := ⟨"", "orders"⟩
  sources := [{ TableRef.blank with table := ⟨"", "payments"⟩ }]
  assignments := some [⟨"status", .text "paid"⟩]
  filter := .binary "=" (.column "id") (.int 1)

/-- A source of an update is left out without a report. -/
theorem render_paidOrders :
  (Statement.update paidOrders).CarriesOnly .sources
    ∧ (Statement.update paidOrders).render {}
      = .ok ⟨"UPDATE orders SET status = 'paid' WHERE id = 1", []⟩
    ∧ ((Statement.update paidOrders).without .sources).render {}
      = .ok ⟨"UPDATE orders SET status = 'paid' WHERE id = 1", []⟩
  := by
  constructor
  · intro d
    cases d <;> decide
  · constructor <;> decide

end Statement

end CqlGateway

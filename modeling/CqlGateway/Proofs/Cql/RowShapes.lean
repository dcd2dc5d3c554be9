import CqlGateway.Proofs.Cql.Outcome
import CqlGateway.Proofs.Statement.Arrangement

/-!
# The shapes of rows

The rows of an insertion can be lists, list expressions or some of each, and they can stand in
wrappers, one inside the other. What the cells are does not matter for this: they may be lists and
objects in turn. Cells are read one by one, each as if it stood alone.

Main statement: `Insert.render_presents`.
-/

namespace CqlGateway

namespace Node

variable {d : Nat} {ms : List (String × Node)}

/-! ### Depths -/

theorem itemsDepth_le {ns : List Node} :
  itemsDepth ns ≤ d ↔ ∀ n ∈ ns, n.depth ≤ d
  := by
  induction ns with
  | nil => simp [itemsDepth]
  | cons n ns ih => rw [itemsDepth, List.forall_mem_cons, ← ih, Nat.max_le]

theorem membersDepth_le :
  membersDepth ms ≤ d ↔ ∀ m ∈ ms, m.2.depth ≤ d
  := by
  induction ms with
  | nil => simp [membersDepth]
  | cons m ms ih => rw [membersDepth, List.forall_mem_cons, ← ih, Nat.max_le]

/-- A list or an object that is within a depth has its parts within one less. -/
theorem depth_list_le {ns : List Node} :
  (Node.list ns).depth ≤ d ↔ ∃ e, d = e + 1 ∧ ∀ n ∈ ns, n.depth ≤ e
  := by
  rw [depth]
  constructor
  · intro h
    exact ⟨d - 1, by omega, itemsDepth_le.mp (by omega)⟩
  · rintro ⟨e, rfl, h⟩
    have := itemsDepth_le.mpr h
    omega

theorem depth_object_le :
  (Node.object ms).depth ≤ d ↔ ∃ e, d = e + 1 ∧ ∀ m ∈ ms, m.2.depth ≤ e
  := by
  rw [depth]
  constructor
  · intro h
    exact ⟨d - 1, by omega, membersDepth_le.mp (by omega)⟩
  · rintro ⟨e, rfl, h⟩
    have := membersDepth_le.mpr h
    omega

theorem isLayered_depth :
  IsLayered (fun d e => d = e + 1) fun d n => n.depth ≤ d
  where
  unique he he' := Nat.succ.inj (he.symm.trans he')
  null := Nat.zero_le
  list := depth_list_le
  object := depth_object_le

/-! ### Settled nodes -/

/-- Below its depth, a node has nothing to accumulate. -/
theorem accumulate_succ {n : Node} (h : n.depth ≤ d) (record : Bool) :
  accumulate (d + 1) record n = accumulate d record n
  := by
  induction d generalizing n record with
  | zero =>
    cases n with
    | list => cases h
    | object => cases h
    | _ => cases record <;> rfl
  | succ d ih =>
    cases n with
    | list ns =>
      obtain ⟨e, he, hns⟩ := depth_list_le.mp h
      cases he
      rw [accumulate, accumulate]
      exact congrArg Node.list (List.map_congr_left fun n hn => ih (hns n hn) record)
    | object ms =>
      obtain ⟨e, he, hms⟩ := depth_object_le.mp h
      cases he
      cases record with
      | true =>
        rw [accumulate, accumulate]
        refine congrArg Node.object (List.map_congr_left ?_)
        intro m hm
        have hdepth := isLayered_depth.accumulated (List.forall_mem_nil _) hms m hm
        simp only [ih hdepth]
      | false =>
        rw [accumulate, accumulate]
        refine congrArg Node.object (List.map_congr_left ?_)
        intro m hm
        simp only [ih (hms m hm)]
    | _ => cases record <;> rfl

theorem accumulate_of_depth_le {n : Node} (h : n.depth ≤ d) (record : Bool) :
  accumulate d record n = accumulate n.depth record n
  := by
  induction d, h using Nat.le_induction with
  | base => rfl
  | succ d h ih => rw [accumulate_succ h, ih]

theorem settled_list (ns : List Node) :
  (Node.list ns).settled = .list (ns.map settled)
  := by
  rw [settled, withCanonicalQueries, itemsWithCanonicalQueries_eq_map, depth, accumulate,
    List.map_map]
  refine congrArg Node.list (List.map_congr_left ?_)
  intro n hn
  exact accumulate_of_depth_le (itemsDepth_le.mp le_rfl _ (List.mem_map_of_mem hn)) false

theorem textOf?_eq_some {name : String} {s : String} :
  textOf? name ms = some s ↔ lookup? name ms = some (.text s)
  := by
  unfold textOf?
  split
  next found hfound => simp [hfound]
  next hother =>
    constructor
    · rintro ⟨⟩
    · exact fun h => absurd h (hother s)

/-- The type of an object stays if its texts and only those become the same texts. -/
theorem objectType_map {g : Node → Node} (hg : ∀ n s, g n = .text s ↔ n = .text s)
    (ms : List (String × Node)) :
  objectType (ms.map fun m => (m.1, g m.2)) = objectType ms
  := by
  have htext : textOf? "type" (ms.map fun m => (m.1, g m.2)) = textOf? "type" ms := by
    apply Option.ext
    intro s
    rw [textOf?_eq_some, textOf?_eq_some, lookup?_map "type" fun _ => g, Option.map_eq_some_iff]
    simp [hg]
  rw [objectType, objectType, htext]

theorem withCanonicalQueries_eq_text (n : Node) (s : String) :
  n.withCanonicalQueries = .text s ↔ n = .text s
  := by
  cases n <;> simp [withCanonicalQueries]

theorem settled_object (h : isQueryType (objectType ms) = false) :
  (Node.object ms).settled = .object (ms.map fun m => (m.1, m.2.settled))
  := by
  have hmembers : membersWithCanonicalQueries false ms
      = ms.map fun m => (m.1, m.2.withCanonicalQueries) := by
    rw [membersWithCanonicalQueries_eq_map]
    simp
  rw [settled, withCanonicalQueries, h, hmembers, depth, accumulate,
    objectType_map withCanonicalQueries_eq_text, h, List.map_map]
  refine congrArg Node.object (List.map_congr_left ?_)
  intro m hm
  have hdepth : m.2.withCanonicalQueries.depth
      ≤ membersDepth (ms.map fun m => (m.1, m.2.withCanonicalQueries)) :=
    membersDepth_le.mp le_rfl (m.1, m.2.withCanonicalQueries) (List.mem_map.mpr ⟨m, hm, rfl⟩)
  exact congrArg (Prod.mk m.1) (accumulate_of_depth_le hdepth false)

theorem settled_eq_text (n : Node) (s : String) :
  n.settled = .text s ↔ n = .text s
  := by
  cases n with
  | list ns => simp [settled_list]
  | object ms => simp [settled, withCanonicalQueries, depth, accumulate]
  | _ => rfl

end Node

namespace Insert

variable {es : List Expr}

/-! ### Presentations of rows -/

/-- A node that has the given cells as a row: a list, or a list expression with a list as its
value. -/
inductive IsRowNode (row : List Node) : Node → Prop where
  | list : IsRowNode row (.list row)
  | expr {members : List (String × Node)} (htype : Node.objectType members = "expr_list")
      (hitems : Node.lookup? "items" members = none)
      (hvalue : Node.lookup? "value" members = some (.list row)) :
      IsRowNode row (.object members)

/-- A node that has the given rows: a list of them, in wrappers or without. -/
inductive Presents (rows : List (List Node)) : Node → Prop where
  | list {items : List Node} (h : List.Forall₂ IsRowNode rows items) : Presents rows (.list items)
  | wrapped {members : List (String × Node)} {n : Node}
      (htype : Node.objectType members = "values")
      (hvalues : Node.lookup? "values" members = some n) (h : Presents rows n) :
      Presents rows (.object members)

/-- The cells of a row as expressions, each read as if it stood alone. -/
def readRow (row : List Node) : Except Rejection (List Expr) := do
  plainCells (← row.mapM Expr.ofNode)

variable {rows : List (List Node)} {row : List Node} {n : Node}

theorem readAll_settled (ns : List Node) :
  Expr.readAll (ns.map Node.settled) = ns.mapM Expr.ofNode
  := by
  induction ns with
  | nil => rfl
  | cons n ns ih =>
    rw [List.map_cons, Expr.readAll, ih, List.mapM_cons]
    rfl

theorem IsRowNode.isRow (h : IsRowNode row n) :
  isRow n = true
  := by
  cases h with
  | list => rfl
  | expr htype => simp [Insert.isRow, Node.type, htype, TermKind.name]

/-- However a row is given, it is read as the list of its cells. -/
theorem IsRowNode.ofNode_eq (h : IsRowNode row n) :
  Expr.ofNode n = (row.mapM Expr.ofNode).map Expr.list
  := by
  cases h with
  | list => rw [Expr.ofNode, Node.settled_list, Expr.read, readAll_settled]
  | @expr members htype hitems hvalue =>
    have hquery : Node.isQueryType (Node.objectType members) = false := by
      rw [htype]
      decide
    rw [Expr.ofNode, Node.settled_object hquery, Expr.read, Parts.assemble,
      Node.objectType_map Node.settled_eq_text, htype]
    simp only [Expr.readListMember?_eq, Node.lookup?_map _ fun _ => Node.settled, hitems, hvalue,
      Option.map_none, Option.map_some, Option.getD_none, Option.getD_some, Node.settled_list,
      Expr.readList, readAll_settled]
    rfl

theorem IsRowNode.cells_eq (h : IsRowNode row n) :
  cells n = readRow row
  := by
  have hcells : cells n = do
      let e ← Expr.ofNode n
      if e.kind? = some .list then plainCells e.items else return [e] := by
    cases h <;> rfl
  rw [hcells, h.ofNode_eq, readRow]
  cases row.mapM Expr.ofNode <;> rfl

theorem rowsOfMember_eq (members : List (String × Node)) :
  rowsOfMember members = ((Node.lookup? "values" members).map Insert.rows).getD (.ok [])
  := by
  induction members with
  | nil => rw [rowsOfMember, Node.lookup?, Option.map_none, Option.getD_none]
  | cons m ms ih =>
    obtain ⟨key, n⟩ := m
    rw [rowsOfMember, Node.lookup?, ih]
    cases hfound : Node.lookup? "values" ms with
    | some found => simp
    | none =>
      by_cases hkey : key = "values"
      · simp [hkey]
      · simp [hkey]

theorem all_isRow {items : List Node} (h : List.Forall₂ IsRowNode rows items) :
  items.all isRow = true
  := by
  induction h with
  | nil => rfl
  | cons hrow _ ih => rw [List.all_cons, hrow.isRow, ih, Bool.true_and]

theorem mapM_cells_eq {items : List Node} (h : List.Forall₂ IsRowNode rows items) :
  items.mapM cells = rows.mapM readRow
  := by
  induction h with
  | nil => rfl
  | cons hrow _ ih => rw [List.mapM_cons, List.mapM_cons, hrow.cells_eq, ih]

/-- However rows are presented, they are read one by one. -/
theorem Presents.rows_eq (h : Presents rows n) (hrows : rows ≠ []) :
  Insert.rows n = rows.mapM readRow
  := by
  induction h with
  | @list items h =>
    have hne : items ≠ [] := by
      rintro rfl
      exact hrows (List.forall₂_nil_right_iff.mp h)
    have hare : areRows items = true := by
      rw [areRows, Bool.and_eq_true]
      exact ⟨by simpa using hne, all_isRow h⟩
    have hrows : Insert.rows (.list items) = if areRows items then items.mapM cells
        else do return [← cells (.list items)] := rfl
    rw [hrows, if_pos hare]
    exact mapM_cells_eq h
  | wrapped htype hvalues _ ih =>
    rw [Insert.rows, htype]
    simp only [if_true]
    rw [rowsOfMember_eq, hvalues, Option.map_some, Option.getD_some, ih]

/-! ### Rendering rows -/

theorem rowsCql_values (s : Insert) (v : Node) (number : Nat) (rows : List (List Expr)) :
  ({ s with values := v } : Insert).rowsCql number rows = s.rowsCql number rows
  := by
  induction rows generalizing number with
  | nil => rfl
  | cons row rows ih =>
    rw [rowsCql, rowsCql, ih]
    rfl

theorem cql_values_congr (s : Insert) {v v' : Node} (h : Insert.rows v = Insert.rows v') :
  ({ s with values := v } : Insert).cql = ({ s with values := v' } : Insert).cql
  := by
  simp only [cql, h, rowsCql_values]

/-- A text is the value of a cell. -/
def IsCellValue (cell : Node) (text : String) : Prop :=
  ∃ e, Expr.ofNode cell = .ok e ∧ e.valueCql.Yields text

/-- The statement that inserts a row of values. -/
def rowText (s : Insert) (values : List String) : String :=
  "INSERT INTO " ++ s.table.cql ++ " (" ++ Cql.quoteIdentifiers s.columns ++ ") VALUES "
    ++ Expr.enclosed "(" ")" values

theorem forall₂_of_mapM {α β ε : Type} {f : α → Except ε β} {as : List α} {bs : List β}
    (h : as.mapM f = .ok bs) :
  List.Forall₂ (fun a b => f a = .ok b) as bs
  := by
  induction as generalizing bs with
  | nil =>
    cases h
    exact .nil
  | cons a as ih =>
    rw [List.mapM_cons] at h
    cases ha : f a with
    | error e =>
      rw [ha] at h
      cases h
    | ok b =>
      cases has : as.mapM f with
      | error e =>
        rw [ha, has] at h
        cases h
      | ok bs =>
        rw [ha, has] at h
        cases h
        exact .cons ha (ih has)

theorem forall₂_of_readRow (h : readRow row = .ok es) :
  List.Forall₂ (fun cell e => Expr.ofNode cell = .ok e) row es
  := by
  unfold readRow at h
  cases hcells : row.mapM Expr.ofNode with
  | error e =>
    rw [hcells] at h
    cases h
  | ok cells =>
    rw [hcells] at h
    change plainCells cells = .ok es at h
    unfold plainCells at h
    split at h
    next => cases h
    next =>
      cases h
      exact forall₂_of_mapM hcells

theorem forall₂_isCellValue {values : List String}
    (hes : List.Forall₂ (fun cell e => Expr.ofNode cell = .ok e) row es)
    (hvalues : List.Forall₂ (fun e text => e.valueCql.Yields text) es values) :
  List.Forall₂ IsCellValue row values
  := by
  induction hes generalizing values with
  | nil =>
    cases hvalues
    exact .nil
  | cons he _ ih =>
    cases hvalues with
    | cons hvalue hvalues => exact .cons ⟨_, he, hvalue⟩ (ih hvalues)

/-- The statement of a row lists the values of its cells, one for each column. -/
theorem exists_values_of_rowCql {s : Insert} {part : String} (hrow : readRow row = .ok es)
    (h : (s.rowCql 1 es).Yields part) :
  ∃ values, List.Forall₂ IsCellValue row values ∧ values.length = s.columns.length
    ∧ part = s.rowText values
  := by
  obtain ⟨hlength, values, hvalues, htext⟩ := yields_rowCql.mp h
  rw [Draft.yields_each] at hvalues
  refine ⟨values, ?_, hvalues.length_eq.symm.trans hlength, htext⟩
  exact forall₂_isCellValue (forall₂_of_readRow hrow) hvalues

theorem exists_values_of_parts {s : Insert} {ess : List (List Expr)} {parts : List String}
    (hrows : List.Forall₂ (fun row es => readRow row = .ok es) rows ess)
    (hparts : List.Forall₂ (fun es part => (s.rowCql 1 es).Yields part) ess parts) :
  ∃ values, List.Forall₂ (List.Forall₂ IsCellValue) rows values
    ∧ (∀ row ∈ values, row.length = s.columns.length) ∧ parts = values.map s.rowText
  := by
  induction hrows generalizing parts with
  | nil =>
    cases hparts
    exact ⟨[], .nil, List.forall_mem_nil _, rfl⟩
  | cons hrow _ ih =>
    cases hparts with
    | cons hpart hparts =>
      obtain ⟨row, hcells, hlength, rfl⟩ := exists_values_of_rowCql hrow hpart
      obtain ⟨values, hrows, hlengths, rfl⟩ := ih hparts
      refine ⟨row :: values, .cons hcells hrows, ?_, rfl⟩
      exact List.forall_mem_cons.mpr ⟨hlength, hlengths⟩

/-- However the rows of an insertion are presented, it comes to the same. If it has a rendering,
there is one statement for each row, which lists the values of its cells, one for each column. -/
theorem render_presents (options : RenderingOptions) (s : Insert) {rows : List (List Node)}
    {v v' : Node} (hrows : rows ≠ []) (hv : Presents rows v) (hv' : Presents rows v') :
  (Statement.insert { s with values := v }).render options
      = (Statement.insert { s with values := v' }).render options
    ∧ ∀ r, (Statement.insert { s with values := v }).render options = .ok r →
      ∃ values, List.Forall₂ (List.Forall₂ IsCellValue) rows values
        ∧ values.length = rows.length ∧ (∀ row ∈ values, row.length = s.columns.length)
        ∧ r.text = textOf (values.map s.rowText)
  := by
  constructor
  · have hcql := s.cql_values_congr ((hv.rows_eq hrows).trans (hv'.rows_eq hrows).symm)
    simp only [Statement.render, Statement.normalize, Statement.renderNormalized, Statement.family,
      Family.render, Family.draft?, hcql]
  · intro r hr
    have hyields : ({ s with values := v } : Insert).cql.Yields r.text := by
      obtain ⟨d, hd, hyields⟩ := Statement.RendersAs.yields ⟨r, hr, rfl⟩
      cases hd
      exact hyields
    obtain ⟨-, -, -, ess, parts, hess, -, hparts, htext⟩ := yields_cql.mp hyields
    rw [hv.rows_eq hrows] at hess
    obtain ⟨values, hvalues, hlengths, rfl⟩ := exists_values_of_parts (forall₂_of_mapM hess) hparts
    exact ⟨values, hvalues, hvalues.length_eq.symm, hlengths, htext⟩

/-- Two rows, with cells that are lists. -/
def taggedRows : List (List Node) :=
  [[.number "1", .list [.text "a", .text "b"]], [.number "2", .list [.null]]]

/-- The rows as a list and as a list expression. -/
def mixedRows : Node :=
  .list [.list [.number "1", .list [.text "a", .text "b"]],
    .object [("type", .text "expr_list"), ("value", .list [.number "2", .list [.null]])]]

/-- The rows as a list expression and as a list, in two wrappers. -/
def wrappedRows : Node :=
  .object [("type", .text "values"), ("values",
    .object [("values", .list
      [.object [("type", .text "expr_list"),
          ("value", .list [.number "1", .list [.text "a", .text "b"]])],
        .list [.number "2", .list [.null]]]), ("type", .text "values")])]

/-- The insertion of values into a table with tags. -/
def tagging (values : Node) : Insert where
  table := ⟨"", "t"⟩
  columns := ["id", "tags"]
  values := values

/-- The batch of two statements for the rows. -/
def tagBatch : Rendering where
  text := batchCql ["INSERT INTO t (id, tags) VALUES (1, ['a', 'b'])",
    "INSERT INTO t (id, tags) VALUES (2, [NULL])"]
  warnings := ["2 rows were expanded into a batch; CQL batches are not atomic across partitions"]

theorem render_wrappedRows :
  Presents taggedRows mixedRows ∧ Presents taggedRows wrappedRows
    ∧ (Statement.insert (tagging mixedRows)).render {} = .ok tagBatch
    ∧ (Statement.insert (tagging wrappedRows)).render {} = .ok tagBatch
    ∧ ∃ values, List.Forall₂ (List.Forall₂ IsCellValue) taggedRows values ∧ values.length = 2
      ∧ (∀ row ∈ values, row.length = 2)
      ∧ tagBatch.text = textOf (values.map (tagging .null).rowText)
  := by
  have hmixed : Presents taggedRows mixedRows :=
    .list (.cons .list (.cons (.expr (by decide) rfl rfl) .nil))
  have hwrapped : Presents taggedRows wrappedRows := by
    refine .wrapped (by decide) rfl (.wrapped (by decide) rfl (.list ?_))
    exact .cons (.expr (by decide) rfl rfl) (.cons .list .nil)
  have hbatch : (Statement.insert (tagging mixedRows)).render {} = .ok tagBatch := by
    rfl
  obtain ⟨hsame, hvalues⟩ :=
    render_presents {} (tagging .null) (List.cons_ne_nil _ _) hmixed hwrapped
  exact ⟨hmixed, hwrapped, hbatch, hsame.symm.trans hbatch, hvalues tagBatch hbatch⟩

end Insert

end CqlGateway

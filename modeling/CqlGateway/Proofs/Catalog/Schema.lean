import CqlGateway.Proofs.Catalog.Scripting
import Mathlib.Logic.Function.Basic

/-!
# Schemas

What the store knows of its tables: the keys of tables, the types of columns, and the tables and
columns that indexes are on. A definition changes a schema, or it cannot be carried out: a column
is added only if it is not there, and dropped only if it is there, is not part of the key and has
no index; an index is created only on a column that is there.

A schema describes a family of tables if its rows are those of the tables. Main statements: what
creates, drops or alters a table can be carried out and brings the description in line.
-/

namespace CqlGateway

open Cql (ColumnType)

/-- A table of the store with its key. -/
structure TableRow where
  name : TableName
  key : List String
  deriving DecidableEq, Repr

/-- A column of the store. -/
structure ColumnRow where
  table : TableName
  name : String
  type : ColumnType
  deriving DecidableEq, Repr

/-- An index of the store. -/
structure IndexRow where
  name : TableName
  table : TableName
  column : String
  deriving DecidableEq, Repr

/-- What the store knows of its tables. -/
structure Schema where
  tables : List TableRow := []
  columns : List ColumnRow := []
  indexes : List IndexRow := []
  deriving DecidableEq, Repr

namespace Schema

/-! ### Carrying out definitions -/

/-- Whether there is a table. -/
def hasTable (s : Schema) (table : TableName) : Bool :=
  s.tables.any (·.name = table)

/-- Whether there is a column. -/
def hasColumn (s : Schema) (table : TableName) (column : String) : Bool :=
  s.columns.any fun r => r.table = table && r.name = column

/-- Whether there is an index. -/
def hasIndex (s : Schema) (name : TableName) : Bool :=
  s.indexes.any (·.name = name)

/-- Whether a column can be dropped: it is there, is not part of the key and has no index. -/
def isFree (s : Schema) (table : TableName) (column : String) : Bool :=
  s.hasColumn table column
    && !(s.tables.any fun r => r.name = table && r.key.contains column)
    && !(s.indexes.any fun r => r.table = table && r.column = column)

/-- Columns of a table as rows. -/
def columnRows (table : TableName) (columns : List (String × ColumnType)) : List ColumnRow :=
  columns.map fun (name, type) => ⟨table, name, type⟩

/-- The schema after a definition, if that can be carried out. A table or index that is to be
created is left alone if it is there; a table is dropped with its indexes. -/
def perform? (s : Schema) : Definition → Option Schema
  | .createKeyspace => some s
  | .createTable table columns key =>
    if s.hasTable table then some s
    else if key ≠ [] ∧ (∀ k ∈ key, k ∈ columns.map (·.1)) ∧ (columns.map (·.1)).Nodup then
      some { s with
        tables := s.tables ++ [⟨table, key⟩], columns := s.columns ++ columnRows table columns }
    else none
  | .dropTable table =>
    some {
      tables := s.tables.filter (·.name ≠ table)
      columns := s.columns.filter (·.table ≠ table)
      indexes := s.indexes.filter (·.table ≠ table) }
  | .addColumns table columns =>
    if s.hasTable table ∧ (∀ c ∈ columns, s.hasColumn table c.1 = false)
        ∧ (columns.map (·.1)).Nodup then
      some { s with columns := s.columns ++ columnRows table columns }
    else none
  | .dropColumns table columns =>
    if s.hasTable table ∧ (∀ c ∈ columns, s.isFree table c = true) ∧ columns.Nodup then
      some { s with columns := s.columns.filter fun r => !(r.table = table && columns.contains r.name) }
    else none
  | .createIndex name table column =>
    if s.hasIndex ⟨table.keyspace, name⟩ then some s
    else if s.hasColumn table column then
      some { s with indexes := s.indexes ++ [⟨⟨table.keyspace, name⟩, table, column⟩] }
    else none
  | .dropIndex name => some { s with indexes := s.indexes.filter (·.name ≠ name) }

/-- The schema after some definitions in order, if all of them can be carried out. -/
def replay? (s : Schema) (ds : List Definition) : Option Schema :=
  ds.foldlM perform? s

/-- The schema after the statements of a script in order, if all of them can be read and carried
out. -/
def run? (s : Schema) (statements : List String) : Option Schema :=
  (Definition.ofScript? statements).bind s.replay?

theorem replay?_append (s : Schema) (ds es : List Definition) :
  s.replay? (ds ++ es) = (s.replay? ds).bind (·.replay? es)
  := List.foldlM_append

theorem replay?_cons (s : Schema) (d : Definition) (ds : List Definition) :
  s.replay? (d :: ds) = (s.perform? d).bind (·.replay? ds)
  := List.foldlM_cons

/-- Whether two schemas have the same tables, columns and indexes. -/
structure Agrees (s s' : Schema) : Prop where
  tables : ∀ r, r ∈ s.tables ↔ r ∈ s'.tables
  columns : ∀ r, r ∈ s.columns ↔ r ∈ s'.columns
  indexes : ∀ r, r ∈ s.indexes ↔ r ∈ s'.indexes

/-! ### Descriptions -/

end Schema

/-- Whether a table has a column of a type. -/
def TableSchema.HasColumn (t : TableSchema) (name : String) (type : ColumnType) : Prop :=
  (name, type) ∈ t.columns.map Column.typed

/-- Whether a table has an index on a column. -/
def TableSchema.HasIndex (t : TableSchema) (name column : String) : Prop :=
  ∃ i ∈ t.secondaryIndexes, i.name = name ∧ i.covered = column

namespace Schema

variable {table : TableName}

/-- The rows of a schema are those of a family of tables, in one keyspace. -/
structure Describes (s : Schema) (space : String) (view : String → Option TableSchema) : Prop where
  tables : ∀ r, r ∈ s.tables
    ↔ r.name.keyspace = space ∧ ∃ t, view r.name.name = some t ∧ r.key = t.primaryKey
  columns : ∀ r, r ∈ s.columns
    ↔ r.table.keyspace = space ∧ ∃ t, view r.table.name = some t ∧ t.HasColumn r.name r.type
  indexes : ∀ r, r ∈ s.indexes
    ↔ r.name.keyspace = space ∧ r.table.keyspace = space
      ∧ ∃ t, view r.table.name = some t ∧ t.HasIndex r.name.name r.column

variable {s s' : Schema} {space : String} {view : String → Option TableSchema}

theorem describes_empty (space : String) :
  Describes {} space (fun _ => none)
  := by
  constructor
  all_goals
    intro r
    simp

theorem Describes.agrees (h : s.Describes space view) (h' : s'.Describes space view) :
  s.Agrees s'
  := by
  constructor
  · intro r
    rw [h.tables, h'.tables]
  · intro r
    rw [h.columns, h'.columns]
  · intro r
    rw [h.indexes, h'.indexes]

theorem Describes.hasTable (h : s.Describes space view) (name : String) :
  s.hasTable ⟨space, name⟩ = (view name).isSome
  := by
  rw [Bool.eq_iff_iff, Schema.hasTable, List.any_eq_true, Option.isSome_iff_exists]
  constructor
  · rintro ⟨r, hr, hname⟩
    obtain ⟨-, t, ht, -⟩ := (h.tables r).mp hr
    rw [decide_eq_true_eq] at hname
    rw [hname] at ht
    exact ⟨t, ht⟩
  · rintro ⟨t, ht⟩
    exact ⟨⟨⟨space, name⟩, t.primaryKey⟩, (h.tables _).mpr ⟨rfl, t, ht, rfl⟩, by simp⟩

theorem hasColumn_iff {column : String} :
  s.hasColumn table column = true ↔ ∃ type, ⟨table, column, type⟩ ∈ s.columns
  := by
  rw [Schema.hasColumn, List.any_eq_true]
  constructor
  · rintro ⟨⟨table', column', type⟩, hr, heq⟩
    simp only [Bool.and_eq_true, decide_eq_true_eq] at heq
    obtain ⟨rfl, rfl⟩ := heq
    exact ⟨type, hr⟩
  · rintro ⟨type, hr⟩
    exact ⟨_, hr, by simp⟩

theorem hasIndex_eq_false {name : TableName} :
  s.hasIndex name = false ↔ ∀ r ∈ s.indexes, r.name ≠ name
  := by
  simp [Schema.hasIndex]

theorem mem_columnRows {r : ColumnRow} {columns : List (String × ColumnType)} :
  r ∈ columnRows table columns ↔ r.table = table ∧ (r.name, r.type) ∈ columns
  := by
  rw [columnRows, List.mem_map]
  constructor
  · rintro ⟨⟨name, type⟩, hmem, rfl⟩
    exact ⟨rfl, hmem⟩
  · rintro ⟨rfl, hmem⟩
    exact ⟨_, hmem, rfl⟩

/-! ### Steps -/

/-- An index of a table as a row. -/
def indexRow (space table : String) (i : Index) : IndexRow :=
  ⟨⟨space, i.name⟩, ⟨space, table⟩, i.covered⟩

theorem replay?_createIndexes {table : String} {indexes : List Index}
    (hfresh : ∀ i ∈ indexes, ∀ r ∈ s.indexes, r.name ≠ ⟨space, i.name⟩)
    (hnodup : (indexes.map Index.name).Nodup)
    (hcolumn : ∀ i ∈ indexes, s.hasColumn ⟨space, table⟩ i.covered = true) :
  s.replay? (indexes.map (·.definition space table))
    = some { s with indexes := s.indexes ++ indexes.map (indexRow space table) }
  := by
  induction indexes generalizing s with
  | nil =>
    rw [List.map_nil, List.map_nil, List.append_nil]
    rfl
  | cons i indexes ih =>
    rw [List.forall_mem_cons] at hfresh hcolumn
    rw [List.map_cons, List.nodup_cons] at hnodup
    have habsent : s.hasIndex ⟨space, i.name⟩ = false := hasIndex_eq_false.mpr hfresh.1
    have hstep : s.perform? (i.definition space table)
        = some { s with indexes := s.indexes ++ [indexRow space table i] } := by
      simp [Index.definition, perform?, habsent, hcolumn.1, indexRow]
    have hrest := ih (s := { s with indexes := s.indexes ++ [indexRow space table i] }) ?_
      hnodup.2 hcolumn.2
    · rw [List.map_cons, replay?_cons, hstep, Option.bind_some, hrest, List.map_cons,
        List.append_assoc, List.singleton_append]
    intro j hj r hr
    rcases List.mem_append.mp hr with hr | hr
    · exact hfresh.2 j hj r hr
    · rw [List.mem_singleton] at hr
      subst hr
      intro hname
      apply hnodup.1
      rw [(TableName.mk.inj hname).2]
      exact List.mem_map_of_mem hj

theorem replay?_dropIndexes (indexes : List Index) :
  s.replay? (indexes.map fun i => .dropIndex ⟨space, i.name⟩)
    = some { s with
        indexes := s.indexes.filter fun r => indexes.all fun i => r.name ≠ ⟨space, i.name⟩ }
  := by
  induction indexes generalizing s with
  | nil =>
    simp only [List.map_nil, List.all_nil, List.filter_true]
    rfl
  | cons i indexes ih =>
    rw [List.map_cons, replay?_cons, perform?, Option.bind_some, ih, List.filter_filter]
    simp only [List.all_cons, Bool.and_comm]

/-- Columns that are not there are added, and then columns are dropped that can be. -/
theorem replay?_columnDefinitions {cs : List (Change Column)} (htable : s.hasTable table = true)
    (hfresh : ∀ c ∈ cs.filterMap Change.added?, s.hasColumn table c.name = false)
    (hadded : ((cs.filterMap Change.added?).map Column.name).Nodup)
    (hfree : ∀ c ∈ cs.filterMap Change.dropped?, s.isFree table c.name = true)
    (hdropped : ((cs.filterMap Change.dropped?).map Column.name).Nodup) :
  s.replay? (columnDefinitions table cs)
    = some { s with
        columns := (s.columns
            ++ columnRows table ((cs.filterMap Change.added?).map Column.typed)).filter
          fun r => !(r.table = table
            && ((cs.filterMap Change.dropped?).map Column.name).contains r.name) }
  := by
  let added := (cs.filterMap Change.added?).map Column.typed
  let dropped := (cs.filterMap Change.dropped?).map Column.name
  have hnames : added.map (·.1) = (cs.filterMap Change.added?).map Column.name := by
    rw [List.map_map]
    rfl
  let s₁ : Schema := { s with columns := s.columns ++ columnRows table added }
  have hadd : s.replay? (if cs.filterMap Change.added? = [] then []
      else [.addColumns table added]) = some s₁ := by
    split
    next hnil =>
      have hnone : columnRows table added = [] := by simp [added, hnil, columnRows]
      simp only [s₁, hnone, List.append_nil]
      rfl
    next =>
      have hcondition : s.hasTable table = true
          ∧ (∀ c ∈ added, s.hasColumn table c.1 = false) ∧ (added.map (·.1)).Nodup := by
        refine ⟨htable, ?_, by rwa [hnames]⟩
        intro c hc
        obtain ⟨a, ha, rfl⟩ := List.mem_map.mp hc
        exact hfresh a ha
      rw [replay?_cons, perform?, if_pos hcondition]
      rfl
  have hdrop : s₁.replay? (if cs.filterMap Change.dropped? = [] then []
      else [.dropColumns table dropped])
      = some { s₁ with
          columns := s₁.columns.filter fun r => !(r.table = table && dropped.contains r.name) } := by
    split
    next hnil =>
      have hnone : dropped = [] := by simp [dropped, hnil]
      simp only [hnone, List.contains_nil, Bool.and_false, Bool.not_false, List.filter_true]
      rfl
    next =>
      have hcondition : s₁.hasTable table = true
          ∧ (∀ c ∈ dropped, s₁.isFree table c = true) ∧ dropped.Nodup := by
        refine ⟨htable, ?_, hdropped⟩
        intro c hc
        obtain ⟨d, hd, rfl⟩ := List.mem_map.mp hc
        have hold := hfree d hd
        simp only [isFree, hasColumn, Bool.and_eq_true] at hold ⊢
        refine ⟨⟨?_, hold.1.2⟩, hold.2⟩
        simp only [s₁, List.any_append, hold.1.1, Bool.true_or]
      rw [replay?_cons, perform?, if_pos hcondition]
      rfl
  rw [columnDefinitions, replay?_append, hadd, Option.bind_some, hdrop]

/-! ### Tables -/

/-- A schema differs from another one at a single table, of which it has the rows of the given
definition, or none. -/
structure Replaces (s s' : Schema) (table : TableName) (t? : Option TableSchema) : Prop where
  tables : ∀ r : TableRow, r.name ≠ table → (r ∈ s'.tables ↔ r ∈ s.tables)
  columns : ∀ r : ColumnRow, r.table ≠ table → (r ∈ s'.columns ↔ r ∈ s.columns)
  indexes : ∀ r : IndexRow, r.table ≠ table → (r ∈ s'.indexes ↔ r ∈ s.indexes)
  key : ∀ key, ⟨table, key⟩ ∈ s'.tables ↔ ∃ t, t? = some t ∧ key = t.primaryKey
  column : ∀ name type, ⟨table, name, type⟩ ∈ s'.columns ↔ ∃ t, t? = some t ∧ t.HasColumn name type
  index : ∀ name column, ⟨name, table, column⟩ ∈ s'.indexes
    ↔ name.keyspace = table.keyspace ∧ ∃ t, t? = some t ∧ t.HasIndex name.name column

theorem update_of_ne {name : String} (hne : table ≠ ⟨space, name⟩) (hspace : table.keyspace = space)
    (t? : Option TableSchema) :
  Function.update view name t? table.name = view table.name
  := by
  apply Function.update_of_ne
  rintro rfl
  apply hne
  rw [← hspace]

theorem Describes.update (h : s.Describes space view) {name : String} {t? : Option TableSchema}
    (hreplaces : s.Replaces s' ⟨space, name⟩ t?) :
  s'.Describes space (Function.update view name t?)
  := by
  constructor
  · rintro ⟨table, key⟩
    by_cases hr : table = ⟨space, name⟩
    · subst hr
      simp [hreplaces.key]
    · rw [hreplaces.tables _ hr, h.tables]
      refine and_congr_right fun hspace => ?_
      rw [update_of_ne hr hspace]
  · rintro ⟨table, column, type⟩
    by_cases hr : table = ⟨space, name⟩
    · subst hr
      simp [hreplaces.column]
    · rw [hreplaces.columns _ hr, h.columns]
      refine and_congr_right fun hspace => ?_
      rw [update_of_ne hr hspace]
  · rintro ⟨index, table, column⟩
    by_cases hr : table = ⟨space, name⟩
    · subst hr
      simp [hreplaces.index]
    · rw [hreplaces.indexes _ hr, h.indexes]
      refine and_congr_right fun _ => and_congr_right fun hspace => ?_
      rw [update_of_ne hr hspace]

/-- The names of indexes of a table are not used by other tables of a family. -/
def IndexesApart (view : String → Option TableSchema) (t : TableSchema) : Prop :=
  ∀ name u, view name = some u → name ≠ t.name →
    ∀ i ∈ t.secondaryIndexes, ∀ j ∈ u.secondaryIndexes, i.name ≠ j.name

theorem mem_indexRows {t : TableSchema} {name : TableName} {column : String} :
  ⟨name, table, column⟩ ∈ t.secondaryIndexes.map (indexRow space t.name)
    ↔ name.keyspace = space ∧ table = ⟨space, t.name⟩ ∧ t.HasIndex name.name column
  := by
  rw [List.mem_map]
  constructor
  · rintro ⟨i, hi, hrow⟩
    cases hrow
    exact ⟨rfl, rfl, i, hi, rfl, rfl⟩
  · rintro ⟨rfl, rfl, i, hi, hname, rfl⟩
    refine ⟨i, hi, ?_⟩
    rw [indexRow, hname]

theorem Describes.create (h : s.Describes space view) {t : TableSchema} (ht : t.IsSound)
    (habsent : view t.name = none) (hapart : IndexesApart view t) :
  ∃ s', s.replay? (t.definitions space) = some s'
    ∧ s'.Describes space (Function.update view t.name (some t))
  := by
  let table : TableName := ⟨space, t.name⟩
  let s₁ : Schema := { s with
    tables := s.tables ++ [⟨table, t.primaryKey⟩]
    columns := s.columns ++ columnRows table (t.columns.map Column.typed) }
  have hnames : (t.columns.map Column.typed).map (·.1) = t.columns.map Column.name := by
    rw [List.map_map]
    rfl
  have hcreate : s.perform? (t.definition space) = some s₁ := by
    have hnone : s.hasTable table = false := by
      rw [h.hasTable, habsent]
      rfl
    rw [TableSchema.definition, perform?, hnone, if_neg Bool.false_ne_true, hnames,
      if_pos ⟨ht.key_ne_nil, ht.key_declared, ht.columns_nodup⟩]
  have hindexes : s₁.replay? (t.secondaryIndexes.map (·.definition space t.name))
      = some { s₁ with
          indexes := s₁.indexes ++ t.secondaryIndexes.map (indexRow space t.name) } := by
    apply replay?_createIndexes _ ht.indexes_nodup
    · intro i hi
      obtain ⟨c, hc, hname⟩ := List.mem_map.mp (ht.covered_mem hi)
      rw [hasColumn_iff, ← hname]
      refine ⟨c.storedType, List.mem_append_right _ (mem_columnRows.mpr ⟨rfl, ?_⟩)⟩
      exact List.mem_map_of_mem hc
    · intro i hi r hr hname
      obtain ⟨-, -, u, hu, j, hj, hjname, -⟩ := (h.indexes r).mp hr
      apply hapart r.table.name u hu _ i hi j hj
      · rw [hjname, hname]
      · intro heq
        rw [heq, habsent] at hu
        cases hu
  refine ⟨_, by rw [TableSchema.definitions, replay?_cons, hcreate, Option.bind_some, hindexes], ?_⟩
  apply h.update
  -- the table had no rows before
  have hno (u : TableSchema) : view t.name ≠ some u := by simp [habsent]
  constructor
  · intro r hr
    have hne : r ≠ ⟨table, t.primaryKey⟩ := by
      rintro rfl
      exact hr rfl
    simp [s₁, hne]
  · intro r hr
    simp [s₁, table, mem_columnRows, hr]
  · rintro ⟨name, other, column⟩ hr
    simp [s₁, mem_indexRows, hr]
  · intro key
    simp [s₁, table, h.tables, hno]
  · intro name type
    simp [s₁, table, h.columns, hno, mem_columnRows, TableSchema.HasColumn]
  · rintro name column
    simp [s₁, h.indexes, hno, mem_indexRows]

theorem Describes.drop (h : s.Describes space view) (name : String) :
  ∃ s', s.replay? [.dropTable ⟨space, name⟩] = some s'
    ∧ s'.Describes space (Function.update view name none)
  := by
  refine ⟨_, rfl, h.update ?_⟩
  constructor
  · intro r hr
    simp [hr]
  · intro r hr
    simp [hr]
  · intro r hr
    simp [hr]
  all_goals simp

end Schema

end CqlGateway

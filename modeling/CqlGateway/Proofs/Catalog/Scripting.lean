import CqlGateway.Catalog.Migration
import CqlGateway.Proofs.Catalog.Changes
import CqlGateway.Proofs.Cql.IndexName

/-!
# What scripts define

The script of a catalog and the migration between two catalogs, read as definitions. In a sound
table all names are plain and in small letters, so that the store has the names that the catalog
has, and the key and the indexes are over declared columns, so that no statement is left out.

Main statements: `Script.ofCatalog_defines` and `Script.migration_defines`.
-/

namespace CqlGateway

open Cql (ColumnType isLowerName)
open TableAlteration (between)
open Change (added? dropped?)
open Script (columnSpecs)

variable {options : RenderingOptions}
  {cs : List (Change Column)} {name : String} {columns : List Column} {c : Catalog.Tables}

/-! ### Sound tables -/

/-- A table all of whose names are plain and in small letters, with a key and indexes over columns
of its own. -/
structure TableSchema.IsSound (t : TableSchema) : Prop where
  name_lower : isLowerName t.name = true
  columns_lower : ∀ c ∈ t.columns, isLowerName c.name = true
  columns_nodup : (t.columns.map Column.name).Nodup
  indexes_lower : ∀ i ∈ t.secondaryIndexes, isLowerName i.name = true
  indexes_nodup : (t.secondaryIndexes.map Index.name).Nodup
  key_ne_nil : t.primaryKey ≠ []
  key_declared : ∀ k ∈ t.primaryKey, k ∈ t.columns.map Column.name
  index_ne_nil : ∀ i ∈ t.secondaryIndexes, i.columns ≠ []
  index_declared : ∀ i ∈ t.secondaryIndexes, ∀ k ∈ i.columns, k ∈ t.columns.map Column.name

instance (t : TableSchema) : Decidable t.IsSound :=
  decidable_of_iff
    (isLowerName t.name = true ∧ (∀ c ∈ t.columns, isLowerName c.name = true)
      ∧ (t.columns.map Column.name).Nodup
      ∧ (∀ i ∈ t.secondaryIndexes, isLowerName i.name = true)
      ∧ (t.secondaryIndexes.map Index.name).Nodup ∧ t.primaryKey ≠ []
      ∧ (∀ k ∈ t.primaryKey, k ∈ t.columns.map Column.name)
      ∧ (∀ i ∈ t.secondaryIndexes, i.columns ≠ [])
      ∧ ∀ i ∈ t.secondaryIndexes, ∀ k ∈ i.columns, k ∈ t.columns.map Column.name)
    ⟨fun ⟨a, b, c, d, e, f, g, h, i⟩ => ⟨a, b, c, d, e, f, g, h, i⟩,
      fun ⟨a, b, c, d, e, f, g, h, i⟩ => ⟨a, b, c, d, e, f, g, h, i⟩⟩

/-- The column that an index covers in the store. -/
def Index.covered (i : Index) : String :=
  i.columns.headD ""

theorem TableSchema.IsSound.covered_mem {t : TableSchema} (h : t.IsSound) {i : Index}
    (hi : i ∈ t.secondaryIndexes) :
  i.covered ∈ t.columns.map Column.name
  := by
  obtain ⟨c, cs, hcs⟩ := List.exists_cons_of_ne_nil (h.index_ne_nil i hi)
  apply h.index_declared i hi
  rw [Index.covered, hcs]
  apply List.mem_cons_self

/-! ### Definitions of tables -/

/-- What creates an index. -/
def Index.definition (i : Index) (space table : String) : Definition :=
  .createIndex i.name ⟨space, table⟩ i.covered

/-- A column with its type in the store. -/
def Column.typed (c : Column) : String × ColumnType :=
  (c.name, c.storedType)

namespace TableSchema

/-- What creates a table. -/
def definition (t : TableSchema) (space : String) : Definition :=
  .createTable ⟨space, t.name⟩ (t.columns.map Column.typed) t.primaryKey

/-- What creates a table and its indexes. -/
def definitions (t : TableSchema) (space : String) : List Definition :=
  t.definition space :: t.secondaryIndexes.map (·.definition space t.name)

end TableSchema

/-- What adds and drops columns. -/
def columnDefinitions (table : TableName) (cs : List (Change Column)) : List Definition :=
  (if cs.filterMap added? = [] then []
    else [.addColumns table ((cs.filterMap added?).map Column.typed)])
  ++ (if cs.filterMap dropped? = [] then []
    else [.dropColumns table ((cs.filterMap dropped?).map Column.name)])

/-- What drops indexes. -/
def indexDropDefinitions (space : String) (cs : List (Change Index)) : List Definition :=
  (cs.filterMap Change.old?).map fun i => .dropIndex ⟨space, i.name⟩

/-- What creates indexes. -/
def indexDefinitions (space table : String) (cs : List (Change Index)) : List Definition :=
  (cs.filterMap Change.new?).map (·.definition space table)

/-- What alters a table. -/
def TableAlteration.definitions (a : TableAlteration) (space : String) : List Definition :=
  indexDropDefinitions space a.indexes ++ columnDefinitions ⟨space, a.new.name⟩ a.columns
    ++ indexDefinitions space a.new.name a.indexes

/-- What a difference calls for. -/
def TableDifference.definitions (space : String) : TableDifference → List Definition
  | .added _ t => t.definitions space
  | .dropped name _ => [.dropTable ⟨space, name⟩]
  | .altered a => a.definitions space

/-! ### Names -/

/-- The name that the store has for a keyspace. -/
def Cql.storedSpace (keyspace : String) : String :=
  if keyspace = "" then "" else storedName keyspace

theorem TableName.stored_of_isLowerName (h : isLowerName name = true) (keyspace : String) :
  (⟨keyspace, name⟩ : TableName).stored = ⟨Cql.storedSpace keyspace, name⟩
  := by
  rw [stored, Cql.storedName_of_isLowerName h, Cql.storedSpace]

theorem Cql.ne_empty_of_isLowerName (h : isLowerName name = true) :
  name ≠ ""
  := by
  rintro rfl
  cases h

theorem Column.stored_of_isLowerName {c : Column} (h : isLowerName c.name = true) :
  c.stored = c.typed
  := by
  rw [Column.stored, Cql.storedName_of_isLowerName h, Column.typed]

theorem Column.map_stored (h : ∀ c ∈ columns, isLowerName c.name = true) :
  columns.map Column.stored = columns.map Column.typed
  := List.map_congr_left fun c hc => stored_of_isLowerName (h c hc)

theorem Cql.map_storedName {names : List String} (h : ∀ n ∈ names, isLowerName n = true) :
  names.map storedName = names
  := by
  rw [List.map_congr_left fun n hn => storedName_of_isLowerName (h n hn), List.map_id']

/-! ### Statements -/

namespace Statement

/-- A statement is rendered, and its text makes the given definitions. -/
def Defines (options : RenderingOptions) (s : Statement) (ds : List Definition) : Prop :=
  ∃ text, s.RendersAs options text ∧ Definition.ofText? text = some ds

theorem defines_of_yields {s : Statement} {d : Draft String} {text : String}
    {ds : List Definition} (hd : s.normalize.family.draft? options s.normalize = some d)
    (hyields : d.Yields text) (hds : Definition.ofText? text = some ds) (hne : ds ≠ []) :
  s.Defines options ds
  := by
  refine ⟨text, rendersAs_of_yields hd hyields ?_, hds⟩
  rintro rfl
  cases hds
  cases hne rfl

end Statement

theorem Column.find?_of_mem (hlower : ∀ c ∈ columns, isLowerName c.name = true)
    (hmem : name ∈ columns.map Column.name) :
  ∃ c, Column.find? columns name = some c ∧ c.name = name
  := by
  obtain ⟨c, hc, rfl⟩ := List.mem_map.mp hmem
  cases hfind : Column.find? columns c.name with
  | none =>
    have hnone := List.find?_eq_none.mp hfind c hc
    simp [Text.equalFold] at hnone
  | some d =>
    have hfold := List.find?_some hfind
    have hd := List.mem_of_find?_eq_some hfind
    rw [Text.equalFold, Cql.fold_of_isLowerName (hlower d hd),
      Cql.fold_of_isLowerName (hlower c hc), beq_iff_eq] at hfold
    exact ⟨d, rfl, hfold⟩

theorem yields_keyColumn {table : TableName} (hlower : ∀ c ∈ columns, isLowerName c.name = true)
    (hmem : name ∈ columns.map Column.name) :
  (keyColumn table columns name).Yields name
  := by
  obtain ⟨c, hfind, hname⟩ := Column.find?_of_mem hlower hmem
  have hplain : isLowerName name = true := by
    obtain ⟨d, hd, rfl⟩ := List.mem_map.mp hmem
    apply hlower d hd
  rw [isLowerName, Bool.and_eq_true] at hplain
  rw [keyColumn, Cql.unquote_of_isPlain hplain.1, hfind]
  simp [hname]

theorem Draft.yields_each_self {α : Type} {f : α → Draft α} {as : List α}
    (h : ∀ a ∈ as, (f a).Yields a) :
  (Draft.each f as).Yields as
  := by
  rw [Draft.yields_each, List.forall₂_same]
  exact h

variable (options)

namespace TableSchema

variable {t : TableSchema}

theorem IsSound.key_lower (h : t.IsSound) :
  ∀ k ∈ t.primaryKey, isLowerName k = true
  := by
  intro k hk
  obtain ⟨c, hc, rfl⟩ := List.mem_map.mp (h.key_declared k hk)
  apply h.columns_lower c hc

/-- The statement that creates a table with columns and a key is rendered as what creates it, with
the names that the store has. -/
theorem defines_createTable {keyspace : String} {key : List String} (hname : t.name ≠ "")
    (hcolumns : t.columns ≠ []) (hkey : ((t.createTable keyspace).key t.columns).Yields key)
    (hne : key ≠ []) :
  (Statement.createTable (t.createTable keyspace)).Defines options
    [.createTable (TableName.stored ⟨keyspace, t.name⟩) (t.columns.map Column.stored)
      (key.map Cql.storedName)]
  := by
  have hparts : (Draft.each Column.cql t.columns).Yields (t.columns.map Column.declaration) := by
    rw [Draft.yields_each, List.forall₂_map_right_iff, List.forall₂_same]
    intro c _
    rw [Column.yields_cql]
  have hspells := Definition.spells_createTable ⟨keyspace, t.name⟩ t.columns hne
  refine Statement.defines_of_yields rfl ?_ (Definition.ofText?_of_spells hspells) (by simp)
  simp only [CreateTable.cql, Draft.yields_bind, Draft.yields_pure, Draft.yields_rejectIf]
  refine ⟨(), ?_, (), ?_, _, hkey, _, hparts, rfl⟩
  · simp [createTable, hname]
  · simpa [createTable] using hcolumns

theorem IsSound.defines_createTable (h : t.IsSound) (keyspace : String) :
  (Statement.createTable (t.createTable keyspace)).Defines options
    [t.definition (Cql.storedSpace keyspace)]
  := by
  have hcolumns : t.columns ≠ [] := by
    obtain ⟨k, hk⟩ := List.exists_mem_of_ne_nil _ h.key_ne_nil
    obtain ⟨c, hc, -⟩ := List.mem_map.mp (h.key_declared k hk)
    exact List.ne_nil_of_mem hc
  have hkey : ((t.createTable keyspace).key t.columns).Yields t.primaryKey := by
    have hempty : t.primaryKey.isEmpty = false := by simpa using h.key_ne_nil
    rw [CreateTable.key, createTable, hempty]
    apply Draft.yields_each_self
    intro k hk
    exact yields_keyColumn h.columns_lower (h.key_declared k hk)
  have hdefines := TableSchema.defines_createTable options
    (Cql.ne_empty_of_isLowerName h.name_lower) hcolumns hkey h.key_ne_nil
  rwa [TableName.stored_of_isLowerName h.name_lower, Column.map_stored h.columns_lower,
    Cql.map_storedName h.key_lower] at hdefines

theorem IsSound.defines_createIndex (h : t.IsSound) (keyspace : String) {i : Index}
    (hi : i ∈ t.secondaryIndexes) :
  (Statement.createIndex (i.create keyspace t.name)).Defines options
    [i.definition (Cql.storedSpace keyspace) t.name]
  := by
  obtain ⟨first, rest, hcolumns⟩ := List.exists_cons_of_ne_nil (h.index_ne_nil i hi)
  have hcovered : i.covered = first := by rw [Index.covered, hcolumns, List.headD_cons]
  have hlower : isLowerName first = true := by
    obtain ⟨c, hc, hname⟩ := List.mem_map.mp (h.covered_mem hi)
    rw [← hcovered, ← hname]
    apply h.columns_lower c hc
  have hspells := Definition.spells_createIndex i.name first ⟨keyspace, t.name⟩
  rw [TableName.stored_of_isLowerName h.name_lower,
    Cql.storedName_of_isLowerName (h.indexes_lower i hi), Cql.storedName_of_isLowerName hlower,
    ← hcovered] at hspells
  refine Statement.defines_of_yields rfl ?_ (Definition.ofText?_of_spells hspells) (by simp)
  have hname := Cql.ne_empty_of_isLowerName (h.indexes_lower i hi)
  have hfirst := Cql.ne_empty_of_isLowerName hlower
  simp [CreateIndex.cql, Index.create, hcolumns, IndexColumn.resolve, hfirst, hname, optionalText,
    Cql.ne_empty_of_isLowerName h.name_lower, hcovered]

end TableSchema

theorem Statement.defines_dropTable (h : isLowerName name = true) (keyspace : String) :
  (Statement.dropTable { tables := some [⟨keyspace, name⟩], ifExists := true }).Defines options
    [.dropTable ⟨Cql.storedSpace keyspace, name⟩]
  := by
  have hspells := Definition.spells_dropTable ⟨keyspace, name⟩
  rw [TableName.stored_of_isLowerName h] at hspells
  refine Statement.defines_of_yields rfl ?_ (Definition.ofText?_of_spells hspells) (by simp)
  have hone : (dropTableCql true ⟨keyspace, name⟩).Yields
      ("DROP TABLE IF EXISTS " ++ TableName.cql ⟨keyspace, name⟩) := by
    simp only [dropTableCql, Draft.yields_bind, Draft.yields_rejectIf, Draft.yields_pure]
    have hstart : "DROP TABLE " ++ optionalText true "IF EXISTS " = "DROP TABLE IF EXISTS " := rfl
    exact ⟨(), by simpa using Cql.ne_empty_of_isLowerName h, by rw [hstart]⟩
  apply DropTable.yields_cql.mpr
  refine ⟨by simp, _, (Draft.yields_each _ _ _).mpr (.cons hone .nil), ?_⟩
  rw [sequenceCql]

theorem Statement.defines_dropIndex (h : isLowerName name = true) (keyspace table : String) :
  (Statement.dropIndex { name := .text name, table := ⟨keyspace, table⟩, ifExists := true }).Defines
    options [.dropIndex ⟨Cql.storedSpace keyspace, name⟩]
  := by
  have hspells := Definition.spells_dropIndex ⟨keyspace, name⟩
  rw [TableName.stored_of_isLowerName h] at hspells
  refine Statement.defines_of_yields rfl ?_ (Definition.ofText?_of_spells hspells) (by simp)
  have hstart : "DROP INDEX " ++ optionalText true "IF EXISTS " = "DROP INDEX IF EXISTS " := rfl
  simp only [DropIndex.cql, Draft.yields_bind, Draft.yields_ofExcept, Draft.yields_pure]
  rw [isLowerName, Bool.and_eq_true] at h
  refine ⟨_, resolveIndexName_text_of_isPlain h.1, ?_⟩
  rw [hstart, if_pos rfl]

/-! ### Alterations of columns -/

/-- Additions and drops are gathered, the rest of the changes is left out. -/
theorem Alterations.yields_addAll (table : TableName)
    (hadded : ∀ c ∈ cs.filterMap added?, c.name ≠ "")
    (hdropped : ∀ c ∈ cs.filterMap dropped?, c.name ≠ "") (a : Alterations) :
  (Alterations.addAll table a (columnSpecs cs)).Yields
    { a with
      adds := a.adds ++ (cs.filterMap added?).map Column.declaration
      drops := a.drops ++ (cs.filterMap dropped?).map fun c => Cql.quoteIdentifier c.name }
  := by
  induction cs generalizing a with
  | nil => simp [columnSpecs, Alterations.addAll]
  | cons c cs ih =>
    simp only [List.filterMap_cons] at hadded hdropped ⊢
    cases c with
    | dropped k o =>
      simp only [added?, dropped?, List.forall_mem_cons] at hadded hdropped ⊢
      have hrest := ih hadded hdropped.2
        { a with drops := a.drops ++ [Cql.quoteIdentifier o.name] }
      rw [List.append_assoc] at hrest
      change (addAll table a
        ({ action := "drop", column := { name := o.name } } :: columnSpecs cs)).Yields _
      rw [addAll, Draft.yields_bind]
      refine ⟨_, ?_, hrest⟩
      simp [Alterations.add, AlterSpec.columnName, hdropped.1]
    | added k n =>
      simp only [added?, dropped?, List.forall_mem_cons] at hadded hdropped ⊢
      have hrest := ih hadded.2 hdropped { a with adds := a.adds ++ [n.declaration] }
      rw [List.append_assoc] at hrest
      change (addAll table a ({ action := "add", column := n } :: columnSpecs cs)).Yields _
      rw [addAll, Draft.yields_bind]
      refine ⟨_, ?_, hrest⟩
      simp [Alterations.add, hadded.1, Column.yields_cql]
    | modified k o n =>
      simp only [added?, dropped?] at hadded hdropped ⊢
      exact ih hadded hdropped a

theorem columnSpecs_eq_nil :
  columnSpecs cs = []
    ↔ cs.filterMap added? = [] ∧ cs.filterMap dropped? = []
  := by
  simp only [columnSpecs, List.filterMap_eq_nil_iff]
  constructor
  · intro h
    constructor
    all_goals
      intro c hc
      have hspec := h c hc
      cases c <;> first | rfl | cases hspec
  · rintro ⟨hadded, hdropped⟩ c hc
    have ha := hadded c hc
    have hd := hdropped c hc
    cases c with
    | dropped => cases hd
    | added => cases ha
    | modified => rfl

/-- What adds and drops columns, with the names that the store has. -/
def storedColumnDefinitions (table : TableName) (cs : List (Change Column)) : List Definition :=
  (if cs.filterMap added? = [] then []
    else [.addColumns table.stored ((cs.filterMap added?).map Column.stored)])
  ++ (if cs.filterMap dropped? = [] then []
    else [.dropColumns table.stored
      ((cs.filterMap dropped?).map fun c => Cql.storedName c.name)])

/-- The statements that alterations come to make the definitions that add and drop the columns. -/
theorem Alterations.spells_storedColumns (table : TableName) (cs : List (Change Column)) :
  List.Forall₂ Definition.Spells
    (Alterations.statements table
      { adds := (cs.filterMap added?).map Column.declaration
        drops := (cs.filterMap dropped?).map fun c => Cql.quoteIdentifier c.name })
    (storedColumnDefinitions table cs)
  := by
  simp only [Alterations.statements, storedColumnDefinitions, List.isEmpty_map,
    List.isEmpty_iff, List.isEmpty_nil, if_true, List.append_nil]
  apply List.rel_append
  · split
    next => exact .nil
    next hsome => exact .cons (Definition.spells_addColumns table hsome) .nil
  · split
    next => exact .nil
    next hsome =>
      refine .cons ?_ .nil
      have hnames : (cs.filterMap dropped?).map Column.name ≠ [] := by simpa using hsome
      have h := Definition.spells_dropColumns table hnames
      rwa [List.map_map, List.map_map, Function.comp_def, Function.comp_def] at h

theorem storedColumnDefinitions_ne_nil (hne : columnSpecs cs ≠ []) (table : TableName) :
  storedColumnDefinitions table cs ≠ []
  := by
  intro hnil
  apply hne
  rw [storedColumnDefinitions, List.append_eq_nil_iff] at hnil
  rw [columnSpecs_eq_nil]
  constructor
  · by_contra h
    simp [h] at hnil
  · by_contra h
    simp [h] at hnil

/-- The statement that adds and drops columns with names is rendered as what adds and drops them. -/
theorem Statement.defines_storedColumns {table : TableName} (htable : table.name ≠ "")
    (hadded : ∀ c ∈ cs.filterMap added?, c.name ≠ "")
    (hdropped : ∀ c ∈ cs.filterMap dropped?, c.name ≠ "")
    (hne : columnSpecs cs ≠ []) :
  (Statement.alterTable { table := table, specs := some (columnSpecs cs) }).Defines
    options (storedColumnDefinitions table cs)
  := by
  have hyields := Alterations.yields_addAll table hadded hdropped {}
  simp only [List.nil_append] at hyields
  have hspells := Alterations.spells_storedColumns table cs
  have hnonempty := storedColumnDefinitions_ne_nil hne table
  refine Statement.defines_of_yields rfl ?_ (Definition.ofText?_sequenceCql hspells ?_) hnonempty
  · simp only [AlterTable.cql, Draft.yields_bind, Draft.yields_pure, Draft.yields_rejectIf]
    refine ⟨(), ?_, (), ?_, _, hyields, rfl⟩
    · simpa using htable
    · simpa using hne
  · intro hnil
    rw [hnil, List.forall₂_nil_left_iff] at hspells
    exact hnonempty hspells

/-- The statement that adds and drops columns is rendered as what adds and drops them. -/
theorem Statement.defines_columnAlteration {table : String} (htable : isLowerName table = true)
    (hadded : ∀ c ∈ cs.filterMap added?, isLowerName c.name = true)
    (hdropped : ∀ c ∈ cs.filterMap dropped?, isLowerName c.name = true)
    (keyspace : String) (hne : columnSpecs cs ≠ []) :
  (Statement.alterTable { table := ⟨keyspace, table⟩, specs := some (columnSpecs cs) }).Defines
    options (columnDefinitions ⟨Cql.storedSpace keyspace, table⟩ cs)
  := by
  have hname : TableName.name ⟨keyspace, table⟩ ≠ "" := Cql.ne_empty_of_isLowerName htable
  have hdefines := Statement.defines_storedColumns options hname
    (fun c hc => Cql.ne_empty_of_isLowerName (hadded c hc))
    (fun c hc => Cql.ne_empty_of_isLowerName (hdropped c hc)) hne
  have hnames : (cs.filterMap dropped?).map (fun c => Cql.storedName c.name)
      = (cs.filterMap dropped?).map Column.name :=
    List.map_congr_left fun c hc => Cql.storedName_of_isLowerName (hdropped c hc)
  rwa [storedColumnDefinitions, TableName.stored_of_isLowerName htable, Column.map_stored hadded,
    hnames] at hdefines

theorem Statement.render_modification (table : TableName) (c : Column) :
  ∃ f, (Statement.alterTable
    { table := table, specs := some [{ action := "modify", column := c }] }).render options = .error f
  := by
  cases hrender : (Statement.alterTable
      { table := table, specs := some [{ action := "modify", column := c }] }).render options with
  | error f => exact ⟨f, rfl⟩
  | ok r =>
    exfalso
    obtain ⟨d, hd, hyields⟩ := Statement.RendersAs.yields ⟨r, hrender, rfl⟩
    cases hd
    simp [AlterTable.cql, Alterations.addAll, Alterations.add] at hyields

/-! ### Steps of a script -/

namespace Script

variable {options} {s : Script} {ds es : List Definition} {statement : Statement}

/-- The statements of a script make the given definitions. -/
def Defines (s : Script) (ds : List Definition) : Prop :=
  Definition.ofScript? s.statements = some ds

theorem Defines.warn (h : s.Defines ds) (warning : String) :
  (s.warn warning).Defines ds
  := h

theorem Defines.foldl_warn (h : s.Defines ds) (warnings : List String) :
  (warnings.foldl Script.warn s).Defines ds
  := by
  induction warnings generalizing s with
  | nil => exact h
  | cons w ws ih => exact ih (h.warn w)

/-- A statement that is rendered goes into the script with what it defines. -/
theorem Defines.add (h : s.Defines ds) (table : String)
    (hstatement : statement.Defines options es) :
  ∃ next, s.add options table statement = (next, none) ∧ next.Defines (ds ++ es)
  := by
  obtain ⟨text, ⟨r, hrender, rfl⟩, htext⟩ := hstatement
  have hone : Definition.ofScript? [r.text] = some es := by
    simp [Definition.ofScript?, List.mapM_cons, htext]
  have hnext := Definition.ofScript?_append h hone
  simp only [Script.add, Attempt.ofStatement, hrender]
  exact ⟨_, rfl, hnext⟩

theorem Defines.attempt (h : s.Defines ds) (table : String)
    (hstatement : statement.Defines options es) :
  ∃ next, s.attempt options table statement = (next, true) ∧ next.Defines (ds ++ es)
  := by
  obtain ⟨next, hadd, hnext⟩ := h.add table hstatement
  exact ⟨next, by rw [Script.attempt, hadd], hnext⟩

/-- A statement without a form in CQL leaves the definitions of the script as they are. -/
theorem Defines.attempt_of_error (h : s.Defines ds) (table : String)
    (hstatement : ∃ f, statement.render options = .error f) :
  (s.attempt options table statement).1.Defines ds
  := by
  obtain ⟨f, hrender⟩ := hstatement
  simp only [Script.attempt, Script.add, Attempt.ofStatement, hrender]
  exact h

/-- What a statement contributes to a script in which it is tried. -/
def Contributes (options : RenderingOptions) (statement : Statement) (es : List Definition) : Prop :=
  statement.Defines options es ∨ (∃ f, statement.render options = .error f) ∧ es = []

/-- What statements contribute to a script in which they are tried in order. -/
def ContributeAll (options : RenderingOptions) (statements : List Statement)
    (es : List Definition) : Prop :=
  ∃ ess, List.Forall₂ (Contributes options) statements ess ∧ ess.flatten = es

theorem ContributeAll.append {ss ts : List Statement} (hss : ContributeAll options ss ds)
    (hts : ContributeAll options ts es) :
  ContributeAll options (ss ++ ts) (ds ++ es)
  := by
  obtain ⟨dss, hdss, rfl⟩ := hss
  obtain ⟨ess, hess, rfl⟩ := hts
  exact ⟨dss ++ ess, List.rel_append hdss hess, List.flatten_append⟩

theorem contributeAll_map {α : Type} {as : List α} {statement : α → Statement} {d : α → Definition}
    (h : ∀ a ∈ as, (statement a).Defines options [d a]) :
  ContributeAll options (as.map statement) (as.map d)
  := by
  induction as with
  | nil => exact ⟨[], .nil, rfl⟩
  | cons a as ih =>
    rw [List.forall_mem_cons] at h
    obtain ⟨ess, hess, hflatten⟩ := ih h.2
    exact ⟨[d a] :: ess, .cons (.inl h.1) hess, by rw [List.flatten_cons, hflatten]; rfl⟩

theorem Defines.attemptAll (h : s.Defines ds) (table : String) {statements : List Statement}
    (hall : ContributeAll options statements es) :
  (Script.attemptAll options table s statements).Defines (ds ++ es)
  := by
  obtain ⟨ess, hess, rfl⟩ := hall
  induction hess generalizing s ds with
  | nil => simpa [Script.attemptAll] using h
  | cons hhead _ ih =>
    rw [Script.attemptAll, List.foldl_cons, ← Script.attemptAll, List.flatten_cons,
      ← List.append_assoc]
    apply ih
    rcases hhead with hdefines | ⟨herror, rfl⟩
    · obtain ⟨next, hattempt, hnext⟩ := h.attempt table hdefines
      rwa [hattempt]
    · rw [List.append_nil]
      exact h.attempt_of_error table herror

/-! ### Tables in a script -/

variable (options)

theorem createIndexes_of_isSound {t : TableSchema} (ht : t.IsSound) (keyspace : String) :
  t.createIndexes keyspace = t.secondaryIndexes.map (·.create keyspace t.name)
  := by
  rw [TableSchema.createIndexes, TableSchema.secondaryIndexes]
  congr 1
  apply List.filter_congr
  intro i hi
  cases hprimary : i.primary with
  | true => rfl
  | false =>
    have hcolumns := ht.index_ne_nil i (List.mem_filter.mpr ⟨hi, by simp [hprimary]⟩)
    simpa using hcolumns

theorem Defines.addIndexes (h : s.Defines ds) (name : String) {as : List Index}
    {create : Index → CreateIndex} {d : Index → Definition}
    (hcreate : ∀ i ∈ as, (Statement.createIndex (create i)).Defines options [d i]) :
  ((as.map create).foldl (addIndex options name) s).Defines (ds ++ as.map d)
  := by
  induction as generalizing s ds with
  | nil => simpa using h
  | cons i as ih =>
    rw [List.forall_mem_cons] at hcreate
    obtain ⟨next, hadd, hnext⟩ := h.add name hcreate.1
    rw [List.map_cons, List.foldl_cons, addIndex, hadd, List.map_cons, List.append_cons]
    exact ih hnext hcreate.2

theorem Defines.addTable (h : s.Defines ds) {t : TableSchema} (ht : t.IsSound)
    (keyspace name : String) :
  (s.addTable options keyspace name t).Defines (ds ++ t.definitions (Cql.storedSpace keyspace))
  := by
  obtain ⟨next, hadd, hnext⟩ := h.add name (ht.defines_createTable options keyspace)
  simp only [Script.addTable, hadd]
  apply Defines.foldl_warn
  rw [createIndexes_of_isSound ht, TableSchema.definitions, List.append_cons]
  apply hnext.addIndexes options
  intro i hi
  exact ht.defines_createIndex options keyspace hi

theorem Defines.addNewTable (h : s.Defines ds) {t : TableSchema} (ht : t.IsSound)
    (keyspace : String) :
  (s.addNewTable options keyspace t).Defines (ds ++ t.definitions (Cql.storedSpace keyspace))
  := by
  obtain ⟨next, hattempt, hnext⟩ := h.attempt t.name (ht.defines_createTable options keyspace)
  simp only [Script.addNewTable, hattempt]
  rw [createIndexes_of_isSound ht, List.map_map, TableSchema.definitions, List.append_cons]
  apply hnext.attemptAll t.name
  apply contributeAll_map
  intro i hi
  exact ht.defines_createIndex options keyspace hi

/-! ### The script of a catalog -/

end Script

/-- A source from which a catalog is read, in some order of tables. -/
structure TableSource.Gives (source : TableSource) (c : Catalog.Tables) : Prop where
  names : ∃ names, source.names = .ok names ∧ names.Perm c.names
  table : ∀ name t, c.get? name = some t → source.table name = .ok t

namespace Catalog.Tables

/-- A catalog of sound tables, each under its own name. -/
structure IsSound (c : Catalog.Tables) : Prop where
  names_nodup : c.names.Nodup
  keyed : ∀ p ∈ c, p.2.name = p.1
  sound : ∀ p ∈ c, p.2.IsSound

instance (c : Catalog.Tables) : Decidable c.IsSound :=
  decidable_of_iff
    (c.names.Nodup ∧ (∀ p ∈ c, p.2.name = p.1) ∧ ∀ p ∈ c, p.2.IsSound)
    ⟨fun ⟨a, b, c⟩ => ⟨a, b, c⟩, fun ⟨a, b, c⟩ => ⟨a, b, c⟩⟩

theorem mem_of_get? {t : TableSchema} (h : c.get? name = some t) :
  (name, t) ∈ c
  := by
  obtain ⟨before, after, rfl, -⟩ := List.lookup_eq_some_iff.mp h
  simp

/-- The definitions of the table of a name. -/
def definitionsAt (c : Catalog.Tables) (space name : String) : List Definition :=
  match c.get? name with
  | some t => t.definitions space
  | none => []

theorem get?_isSome_iff (c : Catalog.Tables) (name : String) :
  (c.get? name).isSome ↔ name ∈ c.names
  := by
  rw [get?, names, List.mem_map, List.lookup_isSome_iff]
  simp

end Catalog.Tables

namespace Script

variable {s : Script} {ds es : List Definition}

/-- The definition of a keyspace, if there is one. -/
def spaceDefinitions (keyspace : String) : List Definition :=
  if keyspace = "" then [] else [.createKeyspace]

theorem addKeyspace_defines (keyspace : String) :
  ∃ s, addKeyspace {} options keyspace = (s, none) ∧ s.Defines (spaceDefinitions keyspace)
  := by
  unfold addKeyspace spaceDefinitions
  split
  next => exact ⟨{}, rfl, rfl⟩
  next hne =>
    have hempty : Defines {} [] := rfl
    apply hempty.add
    obtain ⟨rest, hyields⟩ : ∃ rest,
        (CreateKeyspace.cql options.replication { name := keyspace, ifNotExists := true }).Yields
          ("CREATE KEYSPACE " ++ rest) := by
      simp only [CreateKeyspace.cql, warnOptions, Draft.yields_bind, Draft.yields_pure,
        Draft.yields_rejectIf, Draft.yields_warnIf, String.append_assoc]
      exact ⟨_, (), by simpa using hne, (), trivial, rfl⟩
    exact Statement.defines_of_yields rfl hyields (Definition.ofText?_createKeyspace rest) (by simp)

theorem Defines.addTables (h : s.Defines ds) (hc : c.IsSound) {source : TableSource}
    (hsource : source.Gives c) (keyspace : String) {names : List String}
    (hnames : ∀ name ∈ names, name ∈ c.names) :
  ∃ next, Script.addTables options keyspace source s names = (next, none)
    ∧ next.Defines (ds ++ names.flatMap (c.definitionsAt (Cql.storedSpace keyspace)))
  := by
  induction names generalizing s ds with
  | nil => exact ⟨s, rfl, by simpa using h⟩
  | cons name names ih =>
    rw [List.forall_mem_cons, ← Catalog.Tables.get?_isSome_iff, Option.isSome_iff_exists] at hnames
    obtain ⟨⟨t, ht⟩, hrest⟩ := hnames
    have htable := h.addTable options (hc.sound _ (Catalog.Tables.mem_of_get? ht)) keyspace name
    obtain ⟨next, hnext, hdefines⟩ := ih htable hrest
    refine ⟨next, ?_, ?_⟩
    · rw [Script.addTables, TableSource.read, hsource.table name t ht]
      exact hnext
    · rw [List.flatMap_cons, ← List.append_assoc]
      rwa [Catalog.Tables.definitionsAt, ht]

/-- The script of a sound catalog defines its tables. -/
theorem ofCatalog_defines (hc : c.IsSound) {source : TableSource} (hsource : source.Gives c)
    (keyspace : String) :
  ∃ script, ∃ names : List String, ofCatalog options keyspace source [] = .ok script ∧ names.Perm c.names
    ∧ script.Defines (spaceDefinitions keyspace
        ++ names.flatMap (c.definitionsAt (Cql.storedSpace keyspace)))
  := by
  obtain ⟨names, hlisted, hperm⟩ := hsource.names
  obtain ⟨s, hspace, hs⟩ := addKeyspace_defines options keyspace
  obtain ⟨next, hnext, hdefines⟩ :=
    hs.addTables options hc hsource keyspace fun name => hperm.mem_iff.mp
  refine ⟨next, names, ?_, hperm, hdefines⟩
  simp only [ofCatalog, build, TableSource.chosen, List.isEmpty_nil, if_true, hlisted, hspace, hnext]

/-! ### Migrations -/

end Script

/-- A difference between sound tables. -/
def TableDifference.IsSound : TableDifference → Prop
  | .added _ t => t.IsSound
  | .dropped name _ => isLowerName name = true
  | .altered a => a.old.IsSound ∧ a.new.IsSound ∧ a = .between a.old a.new

namespace Script

variable {s : Script} {ds es : List Definition}

theorem contributeAll_columnModifications (keyspace table : String) (cs : List (Change Column)) :
  ContributeAll options (columnModifications keyspace table cs) []
  := by
  refine ⟨(columnModifications keyspace table cs).map fun _ => [], ?_, by simp⟩
  rw [List.forall₂_map_right_iff, List.forall₂_same]
  intro statement hmem
  rw [columnModifications, List.mem_filterMap] at hmem
  obtain ⟨c, -, hc⟩ := hmem
  cases c with
  | dropped => cases hc
  | added => cases hc
  | modified k o n =>
    cases hc
    exact .inr ⟨Statement.render_modification options _ n, rfl⟩

section Alteration

variable {old new : TableSchema}

theorem contributeAll_indexDrops (hold : old.IsSound) (new : TableSchema) (keyspace : String) :
  ContributeAll options (indexDrops keyspace new.name (between old new).indexes)
    (indexDropDefinitions (Cql.storedSpace keyspace) (between old new).indexes)
  := by
  rw [indexDrops, ← List.map_filterMap]
  apply contributeAll_map
  intro i hi
  obtain ⟨k, hk, -⟩ := mem_old.mp hi
  apply Statement.defines_dropIndex
  exact hold.indexes_lower i (mem_of_lastOf? hk).1

theorem contributeAll_indexAdditions (hnew : new.IsSound) (keyspace : String) :
  ContributeAll options (indexAdditions keyspace new.name (between old new).indexes)
    (indexDefinitions (Cql.storedSpace keyspace) new.name (between old new).indexes)
  := by
  rw [indexAdditions, ← List.map_filterMap]
  apply contributeAll_map
  intro i hi
  obtain ⟨k, hk, -⟩ := mem_new.mp hi
  apply hnew.defines_createIndex
  exact (mem_of_lastOf? hk).1

theorem contributeAll_columnAlteration (hold : old.IsSound) (hnew : new.IsSound)
    (keyspace : String) :
  ContributeAll options
    (columnAlteration keyspace new.name (between old new).columns)
    (columnDefinitions ⟨Cql.storedSpace keyspace, new.name⟩
      (between old new).columns)
  := by
  unfold columnAlteration
  split
  next hempty =>
    rw [List.isEmpty_iff, columnSpecs_eq_nil] at hempty
    rw [columnDefinitions, if_pos hempty.1, if_pos hempty.2]
    exact ⟨[], .nil, rfl⟩
  next hne =>
    rw [List.isEmpty_iff] at hne
    refine ⟨[_], .cons (.inl ?_) .nil, List.flatten_singleton⟩
    apply Statement.defines_columnAlteration options hnew.name_lower _ _ keyspace hne
    · intro c hc
      obtain ⟨k, -, hk⟩ := mem_added.mp hc
      exact hnew.columns_lower c (mem_of_lastOf? hk).1
    · intro c hc
      obtain ⟨k, hk, -⟩ := mem_dropped.mp hc
      exact hold.columns_lower c (mem_of_lastOf? hk).1

theorem contributeAll_alteration (hold : old.IsSound) (hnew : new.IsSound) (keyspace : String) :
  ContributeAll options
    (indexDrops keyspace new.name (between old new).indexes
      ++ columnModifications keyspace new.name (between old new).columns
      ++ columnAlteration keyspace new.name (between old new).columns
      ++ indexAdditions keyspace new.name (between old new).indexes)
    ((between old new).definitions (Cql.storedSpace keyspace))
  := by
  apply ContributeAll.append
  · apply ContributeAll.append
    · have h := (contributeAll_indexDrops options hold new keyspace).append
        (contributeAll_columnModifications options keyspace new.name
          (between old new).columns)
      rwa [List.append_nil] at h
    · exact contributeAll_columnAlteration options hold hnew keyspace
  · exact contributeAll_indexAdditions options hnew keyspace

end Alteration

/-- A difference goes into the migration with what it calls for. -/
theorem Defines.migrateTable (h : s.Defines ds) (keyspace : String) {d : TableDifference}
    (hd : d.IsSound) :
  (s.migrateTable options keyspace d).Defines (ds ++ d.definitions (Cql.storedSpace keyspace))
  := by
  cases d with
  | added name t => exact h.addNewTable options hd keyspace
  | dropped name t =>
    obtain ⟨next, hattempt, hnext⟩ :=
      h.attempt name (Statement.defines_dropTable options hd keyspace)
    rw [Script.migrateTable, hattempt]
    exact hnext
  | altered a =>
    obtain ⟨hold, hnew, ha⟩ := hd
    generalize a.old = old, a.new = new at hold hnew ha
    subst ha
    apply Defines.foldl_warn
    have hstart : (if (between old new).keyChanged then s.warn (keyWarning new.name)
        else s).Defines ds := by
      split
      · exact h.warn _
      · exact h
    exact hstart.attemptAll new.name (contributeAll_alteration options hold hnew keyspace)

/-- The migration for differences between sound tables makes what they call for, in order. -/
theorem migration_defines (keyspace : String) {differences : List TableDifference}
    (h : ∀ d ∈ differences, d.IsSound) :
  (migration options keyspace differences).Defines
    (differences.flatMap (·.definitions (Cql.storedSpace keyspace)))
  := by
  have hfold : ∀ (s : Script) (ds : List Definition), s.Defines ds →
      (differences.foldl (Script.migrateTable options keyspace) s).Defines
        (ds ++ differences.flatMap (·.definitions (Cql.storedSpace keyspace))) := by
    induction differences with
    | nil =>
      intro s ds hs
      simpa using hs
    | cons d differences ih =>
      intro s ds hs
      rw [List.forall_mem_cons] at h
      rw [List.foldl_cons, List.flatMap_cons, ← List.append_assoc]
      exact ih h.2 _ _ (hs.migrateTable options keyspace h.1)
  exact hfold {} [] rfl

end Script

end CqlGateway

import CqlGateway.Proofs.Catalog.Scripting
import CqlGateway.Proofs.Cql.Report

/-!
# What a script consists of

A script is put together by trying one statement after another. Its statements are the renderings of
those that were tried, in the same order; a statement without a rendering leaves a warning only. No
warning is taken back.

Main statements: `Script.statements_migration` and `Script.statements_ofCatalog`.
-/

namespace CqlGateway

variable {options : RenderingOptions} {keyspace : String}
  {source : TableSource} {text : String} {a : TableAlteration} {only : List String}

/-! ### Statements that are tried -/

/-- The text that a statement is rendered as, if it is. -/
def Statement.text? (options : RenderingOptions) (s : Statement) : Option String :=
  match s.render options with
  | .ok r => some r.text
  | .error _ => none

theorem Statement.text?_eq_some {s : Statement} :
  s.text? options = some text ↔ s.RendersAs options text
  := by
  unfold text? RendersAs
  cases s.render options <;> simp

theorem Statement.filterMap_text?_cons (s : Statement) (statements : List Statement) :
  (s :: statements).filterMap (text? options)
    = (s.text? options).toList ++ statements.filterMap (text? options)
  := by
  rw [List.filterMap_cons]
  cases s.text? options <;> rfl

/-- What creates a table and, if the table has a form in CQL, its indexes. -/
def TableSchema.statements (options : RenderingOptions) (keyspace : String) (t : TableSchema) :
    List Statement :=
  .createTable (t.createTable keyspace) ::
    if ((Statement.createTable (t.createTable keyspace)).text? options).isSome then
      (t.createIndexes keyspace).map .createIndex
    else []

theorem TableSchema.createIndex_of_mem_statements {t : TableSchema} {s : CreateIndex}
    (h : .createIndex s ∈ t.statements options keyspace) :
  ∃ i ∈ t.indexes, s = i.create keyspace t.name
  := by
  rw [TableSchema.statements] at h
  split at h
  next =>
    simp only [TableSchema.createIndexes, List.map_map, List.mem_cons, reduceCtorEq, List.mem_map,
      Function.comp_apply, false_or] at h
    obtain ⟨i, hi, heq⟩ := h
    cases heq
    exact ⟨i, List.mem_of_mem_filter hi, rfl⟩
  next => simp at h

/-- The statement that drops an index. -/
def Index.drop (i : Index) (keyspace table : String) : DropIndex where
  name := .text i.name
  table := ⟨keyspace, table⟩
  ifExists := true

/-- What alters a table. -/
def TableAlteration.statements (keyspace : String) (a : TableAlteration) : List Statement :=
  Script.indexDrops keyspace a.new.name a.indexes
    ++ Script.columnModifications keyspace a.new.name a.columns
    ++ Script.columnAlteration keyspace a.new.name a.columns
    ++ Script.indexAdditions keyspace a.new.name a.indexes

theorem exists_of_forall₂ {α β : Type} {R : α → β → Prop} {as : List α} {bs : List β}
    (h : List.Forall₂ R as bs) :
  (∀ a ∈ as, ∃ b ∈ bs, R a b) ∧ ∀ b ∈ bs, ∃ a ∈ as, R a b
  := by
  induction h with
  | nil => simp
  | cons hab _ ih =>
    simp only [List.mem_cons, forall_eq_or_imp, exists_eq_or_imp]
    exact ⟨⟨.inl hab, fun a ha => .inr (ih.1 a ha)⟩, .inl hab, fun b hb => .inr (ih.2 b hb)⟩

theorem mem_filterMap_map {α β γ : Type} {f : α → Option β} {g : β → γ} {as : List α} {c : γ} :
  c ∈ as.filterMap (fun a => (f a).map g) ↔ ∃ b ∈ as.filterMap f, c = g b
  := by
  simp only [List.mem_filterMap, Option.map_eq_some_iff]
  constructor
  · rintro ⟨a, ha, b, hb, rfl⟩
    exact ⟨b, ⟨a, ha, hb⟩, rfl⟩
  · rintro ⟨b, ⟨a, ha, hb⟩, rfl⟩
    exact ⟨a, ha, b, hb, rfl⟩

/-- The statements of an alteration: its indexes are dropped, its columns are modified one by one,
its columns are dropped and added, and its indexes are created. -/
theorem TableAlteration.mem_statements {s : Statement} :
  s ∈ a.statements keyspace
    ↔ (∃ i ∈ a.indexes.filterMap Change.old?, s = .dropIndex (i.drop keyspace a.new.name))
      ∨ (∃ k o n, Change.modified k o n ∈ a.columns ∧ s = .alterTable
        { table := ⟨keyspace, a.new.name⟩, specs := some [{ action := "modify", column := n }] })
      ∨ (Script.columnSpecs a.columns ≠ [] ∧ s = .alterTable
        { table := ⟨keyspace, a.new.name⟩, specs := some (Script.columnSpecs a.columns) })
      ∨ ∃ i ∈ a.indexes.filterMap Change.new?, s = .createIndex (i.create keyspace a.new.name)
  := by
  have hdrops : s ∈ Script.indexDrops keyspace a.new.name a.indexes
      ↔ ∃ i ∈ a.indexes.filterMap Change.old?, s = .dropIndex (i.drop keyspace a.new.name) :=
    mem_filterMap_map
  have hadditions : s ∈ Script.indexAdditions keyspace a.new.name a.indexes
      ↔ ∃ i ∈ a.indexes.filterMap Change.new?, s = .createIndex (i.create keyspace a.new.name) :=
    mem_filterMap_map
  have hmodifications : s ∈ Script.columnModifications keyspace a.new.name a.columns
      ↔ ∃ k o n, Change.modified k o n ∈ a.columns ∧ s = .alterTable
        { table := ⟨keyspace, a.new.name⟩, specs := some [{ action := "modify", column := n }] } := by
    rw [Script.columnModifications, List.mem_filterMap]
    constructor
    · rintro ⟨c, hc, h⟩
      cases c with
      | dropped | added => cases h
      | modified k o n =>
        cases h
        exact ⟨k, o, n, hc, rfl⟩
    · rintro ⟨k, o, n, hc, rfl⟩
      exact ⟨_, hc, rfl⟩
  have hcolumns : s ∈ Script.columnAlteration keyspace a.new.name a.columns
      ↔ Script.columnSpecs a.columns ≠ [] ∧ s = .alterTable
        { table := ⟨keyspace, a.new.name⟩, specs := some (Script.columnSpecs a.columns) } := by
    rw [Script.columnAlteration]
    split
    next hempty => simp [List.isEmpty_iff.mp hempty]
    next hne => simp [List.isEmpty_iff.not.mp hne]
  rw [TableAlteration.statements, List.mem_append, List.mem_append, List.mem_append, hdrops,
    hmodifications, hcolumns, hadditions, or_assoc, or_assoc]

/-- What a difference calls for. -/
def TableDifference.statements (options : RenderingOptions) (keyspace : String) :
    TableDifference → List Statement
  | .added _ t => t.statements options keyspace
  | .dropped name _ => [.dropTable { tables := some [⟨keyspace, name⟩], ifExists := true }]
  | .altered a => a.statements keyspace

namespace Script

variable (options) {s t u : Script} {texts others : List String} {names : List String}

/-! ### Steps -/

/-- A script with further statements behind those of another one, and with its warnings. -/
structure Continues (s : Script) (texts : List String) (next : Script) : Prop where
  statements : next.statements = s.statements ++ texts
  warnings : s.warnings ⊆ next.warnings

theorem Continues.refl (s : Script) :
  s.Continues [] s
  := ⟨(List.append_nil _).symm, List.Subset.refl _⟩

theorem Continues.trans (hst : s.Continues texts t) (htu : t.Continues others u) :
  s.Continues (texts ++ others) u
  where
  statements := by rw [htu.statements, hst.statements, List.append_assoc]
  warnings := List.Subset.trans hst.warnings htu.warnings

theorem Continues.warn (h : s.Continues texts t) (warning : String) :
  s.Continues texts (t.warn warning)
  := ⟨h.statements, List.Subset.trans h.warnings (List.subset_append_left _ _)⟩

theorem Continues.skip (h : s.Continues texts t) (table : String) :
  s.Continues texts (t.skip table)
  := ⟨h.statements, h.warnings⟩

theorem Continues.foldl_warn (h : s.Continues texts t) (warnings : List String) :
  s.Continues texts (warnings.foldl Script.warn t)
  := by
  induction warnings generalizing t with
  | nil => exact h
  | cons w ws ih => exact ih (h.warn w)

/-- A statement goes into the script with its text, or it fails. -/
theorem continues_add (s : Script) (table : String) (statement : Statement) :
  s.Continues (statement.text? options).toList (s.add options table statement).1
    ∧ ((s.add options table statement).2 = none ↔ (statement.text? options).isSome = true)
  := by
  unfold Script.add Attempt.ofStatement Statement.text?
  cases statement.render options with
  | error f => exact ⟨⟨(List.append_nil _).symm, List.Subset.refl _⟩, by simp⟩
  | ok r => exact ⟨⟨rfl, List.subset_append_left _ _⟩, by simp⟩

theorem continues_attempt (s : Script) (table : String) (statement : Statement) :
  s.Continues (statement.text? options).toList (s.attempt options table statement).1
    ∧ (s.attempt options table statement).2 = (statement.text? options).isSome
  := by
  obtain ⟨hnext, hfailed⟩ := continues_add options s table statement
  unfold Script.attempt
  split
  next next hadd =>
    rw [hadd] at hnext hfailed
    exact ⟨hnext, (hfailed.mp rfl).symm⟩
  next next f hadd =>
    rw [hadd] at hnext hfailed
    refine ⟨hnext.warn _, ?_⟩
    simpa using hfailed

theorem continues_attemptAll (s : Script) (table : String) (statements : List Statement) :
  s.Continues (statements.filterMap (Statement.text? options))
    (attemptAll options table s statements)
  := by
  induction statements generalizing s with
  | nil => exact .refl s
  | cons statement statements ih =>
    rw [attemptAll, List.foldl_cons, ← attemptAll, Statement.filterMap_text?_cons]
    exact (continues_attempt options s table statement).1.trans (ih _)

/-! ### Migrations -/

variable {options}

theorem continues_addNewTable (s : Script) (t : TableSchema) :
  s.Continues ((t.statements options keyspace).filterMap (Statement.text? options))
    (s.addNewTable options keyspace t)
  := by
  obtain ⟨hnext, hdone⟩ :=
    continues_attempt options s t.name (.createTable (t.createTable keyspace))
  rw [Script.addNewTable, TableSchema.statements, Statement.filterMap_text?_cons]
  generalize s.attempt options t.name (.createTable (t.createTable keyspace)) = attempted
    at hnext hdone ⊢
  obtain ⟨next, done⟩ := attempted
  rw [← hdone]
  cases done with
  | false => exact (hnext.trans (.refl _)).skip _
  | true => exact hnext.trans (continues_attemptAll options _ _ _)

theorem continues_alter (s : Script) (a : TableAlteration) :
  s.Continues ((a.statements keyspace).filterMap (Statement.text? options))
    (s.alter options keyspace a)
  := by
  unfold Script.alter
  apply Continues.foldl_warn
  cases a.keyChanged with
  | false => exact continues_attemptAll options _ _ _
  | true => exact ((Continues.refl s).warn _).trans (continues_attemptAll options _ _ _)

theorem continues_migrateTable (s : Script) (d : TableDifference) :
  s.Continues ((d.statements options keyspace).filterMap (Statement.text? options))
    (migrateTable options keyspace s d)
  := by
  cases d with
  | added name t => exact continues_addNewTable s t
  | dropped name t => exact continues_attemptAll options s name [_]
  | altered a => exact continues_alter s a

/-- A script with the migration for some differences behind it. -/
theorem continues_migration (s : Script) (ds : List TableDifference) :
  s.Continues
    (ds.flatMap fun d => (d.statements options keyspace).filterMap (Statement.text? options))
    (ds.foldl (migrateTable options keyspace) s)
  := by
  induction ds generalizing s with
  | nil => exact .refl s
  | cons d ds ih => exact (continues_migrateTable s d).trans (ih _)

theorem mem_statements_migration {ds : List TableDifference} :
  text ∈ (migration options keyspace ds).statements
    ↔ ∃ d ∈ ds, ∃ statement ∈ d.statements options keyspace, statement.RendersAs options text
  := by
  rw [migration, (continues_migration {} ds).statements, List.nil_append]
  simp only [List.mem_flatMap, List.mem_filterMap, Statement.text?_eq_some]

theorem keyWarning_mem_alter (s : Script) (h : a.keyChanged = true) :
  keyWarning a.new.name ∈ (s.alter options keyspace a).warnings
  := by
  unfold Script.alter
  rw [h]
  have hrest := (continues_attemptAll options (s.warn (keyWarning a.new.name))
    a.new.name (a.statements keyspace)).foldl_warn
      (a.foreignKeys.map (foreignKeyChangeWarning a.new.name))
  apply hrest.warnings
  exact List.mem_append_right _ List.mem_cons_self

theorem keyWarning_mem_migration {ds : List TableDifference} (ha : .altered a ∈ ds)
    (h : a.keyChanged = true) :
  keyWarning a.new.name ∈ (migration options keyspace ds).warnings
  := by
  obtain ⟨before, after, rfl⟩ := List.append_of_mem ha
  rw [migration, List.foldl_append, List.foldl_cons]
  apply (continues_migration _ after).warnings
  exact keyWarning_mem_alter _ h

/-! ### Scripts of catalogs -/

theorem continues_addIndex (s : Script) (table : String) (i : CreateIndex) :
  s.Continues ((Statement.createIndex i).text? options).toList (addIndex options table s i)
  := by
  obtain ⟨hnext, -⟩ := continues_add options s table (.createIndex i)
  rw [addIndex]
  generalize s.add options table (.createIndex i) = added at hnext ⊢
  obtain ⟨next, _ | f⟩ := added
  · exact hnext
  · exact hnext.warn _

theorem continues_addIndexes (s : Script) (table : String) (is : List CreateIndex) :
  s.Continues ((is.map Statement.createIndex).filterMap (Statement.text? options))
    (is.foldl (addIndex options table) s)
  := by
  induction is generalizing s with
  | nil => exact .refl s
  | cons i is ih =>
    rw [List.foldl_cons, List.map_cons, Statement.filterMap_text?_cons]
    exact (continues_addIndex s table i).trans (ih _)

theorem continues_addTable (s : Script) (name : String) (t : TableSchema) :
  s.Continues ((t.statements options keyspace).filterMap (Statement.text? options))
    (s.addTable options keyspace name t)
  := by
  obtain ⟨hnext, hdone⟩ := continues_add options s name (.createTable (t.createTable keyspace))
  rw [Script.addTable, TableSchema.statements, Statement.filterMap_text?_cons]
  generalize s.add options name (.createTable (t.createTable keyspace)) = added at hnext hdone ⊢
  obtain ⟨next, _ | f⟩ := added
  · rw [if_pos (hdone.mp rfl)]
    exact (hnext.trans (continues_addIndexes _ _ _)).foldl_warn _
  · rw [if_neg fun h => Option.some_ne_none f (hdone.mpr h)]
    exact ((hnext.trans (.refl _)).skip _).warn _

theorem continues_addTables {ts : List TableSchema}
    (h : List.Forall₂ (fun name t => source.table name = .ok t) names ts) (s : Script) :
  ∃ next, addTables options keyspace source s names = (next, none)
    ∧ s.Continues
      (ts.flatMap fun t => (t.statements options keyspace).filterMap (Statement.text? options)) next
  := by
  induction h generalizing s with
  | nil => exact ⟨s, rfl, .refl s⟩
  | @cons name t names ts hread _ ih =>
    obtain ⟨next, hnext, hcontinues⟩ := ih (s.addTable options keyspace name t)
    refine ⟨next, ?_, (continues_addTable s name t).trans hcontinues⟩
    rw [addTables, TableSource.read, hread]
    exact hnext

theorem read_of_addTables {next : Script}
    (h : addTables options keyspace source s names = (next, none)) :
  ∃ ts, List.Forall₂ (fun name t => source.table name = .ok t) names ts
  := by
  induction names generalizing s with
  | nil => exact ⟨[], .nil⟩
  | cons name names ih =>
    rw [addTables, TableSource.read] at h
    cases hread : source.table name with
    | error f =>
      rw [hread] at h
      cases h
    | ok t =>
      rw [hread] at h
      obtain ⟨ts, hts⟩ := ih h
      exact ⟨t :: ts, .cons hread hts⟩

/-- What creates a keyspace, if there is one. -/
def spaceStatements (keyspace : String) : List Statement :=
  if keyspace = "" then [] else [.createKeyspace { name := keyspace, ifNotExists := true }]

theorem continues_addKeyspace (options : RenderingOptions) (keyspace : String) :
  ∃ s, addKeyspace {} options keyspace = (s, none)
    ∧ Continues {} ((spaceStatements keyspace).filterMap (Statement.text? options)) s
  := by
  obtain ⟨s, hs, -⟩ := addKeyspace_defines options keyspace
  refine ⟨s, hs, ?_⟩
  unfold addKeyspace at hs
  unfold spaceStatements
  split at hs
  next hempty =>
    cases hs
    rw [if_pos hempty]
    exact .refl _
  next hne =>
    rw [if_neg hne, Statement.filterMap_text?_cons, List.filterMap_nil, List.append_nil]
    obtain ⟨hnext, -⟩ := continues_add options {} ""
      (.createKeyspace { name := keyspace, ifNotExists := true })
    rwa [hs] at hnext

/-- If the tables that are chosen can be read, the script of a catalog consists of the renderings of
what creates them. -/
theorem statements_ofCatalog {ts : List TableSchema} (hchosen : source.chosen only = .ok names)
    (hread : List.Forall₂ (fun name t => source.table name = .ok t) names ts) :
  ∃ script, ofCatalog options keyspace source only = .ok script
    ∧ script.statements
      = (spaceStatements keyspace).filterMap (Statement.text? options)
        ++ ts.flatMap fun t => (t.statements options keyspace).filterMap (Statement.text? options)
  := by
  obtain ⟨s, hspace, hs⟩ := continues_addKeyspace options keyspace
  obtain ⟨next, hnext, hcontinues⟩ :=
    @continues_addTables options keyspace source names ts hread s
  refine ⟨next, ?_, (hs.trans hcontinues).statements⟩
  rw [ofCatalog, build, hchosen]
  dsimp only
  rw [hspace]
  dsimp only
  rw [hnext]

theorem read_of_ofCatalog {script : Script}
    (h : ofCatalog options keyspace source only = .ok script) :
  ∃ names ts, source.chosen only = .ok names
    ∧ List.Forall₂ (fun name t => source.table name = .ok t) names ts
  := by
  obtain ⟨s, hspace, -⟩ := continues_addKeyspace options keyspace
  rw [ofCatalog, build] at h
  cases hchosen : source.chosen only with
  | error f =>
    rw [hchosen] at h
    cases h
  | ok names =>
    rw [hchosen, hspace] at h
    dsimp only at h
    cases hadd : addTables options keyspace source s names with
    | mk next failed =>
      rw [hadd] at h
      cases failed with
      | some f => cases h
      | none =>
        obtain ⟨ts, hts⟩ := read_of_addTables hadd
        exact ⟨names, ts, rfl, hts⟩

end Script

/-! ### The kinds of statements -/

/-- How the statements of scripts begin. -/
def Statement.heading : Statement → String
  | .createKeyspace _ => "CREATE KEYSPACE "
  | .createTable _ => "CREATE TABLE "
  | .dropTable _ => "DROP TABLE "
  | .alterTable _ => "ALTER TABLE "
  | .createIndex _ => "CREATE INDEX "
  | .dropIndex _ => "DROP INDEX "
  | _ => ""

theorem begins_sequenceCql {start : String} {texts : List String} (hne : texts ≠ [])
    (h : ∀ text ∈ texts, Text.Begins text start) :
  Text.Begins (sequenceCql texts) start
  := by
  match texts with
  | [] => cases hne rfl
  | [text] => exact h text List.mem_cons_self
  | text :: next :: rest =>
    rw [sequenceCql, String.intercalate_cons_cons]
    · exact (((h text List.mem_cons_self).append _).append _).append _
    · simp

theorem begins_append (start rest : String) :
  Text.Begins (start ++ rest) start
  := Text.Begins.append (List.prefix_refl _) rest

theorem Statement.begins_heading {s : Statement} (h : s.RendersAs options text) :
  Text.Begins text s.heading
  := by
  obtain ⟨d, hd, hyields⟩ := h.yields
  cases s with
  | createKeyspace s =>
    cases hd
    simp only [CreateKeyspace.cql, Draft.yields_bind, Draft.yields_pure, String.append_assoc] at hyields
    obtain ⟨-, -, -, -, rfl⟩ := hyields
    apply begins_append
  | createTable s =>
    cases hd
    simp only [CreateTable.cql, Draft.yields_bind, Draft.yields_pure, String.append_assoc] at hyields
    obtain ⟨-, -, -, -, key, -, parts, -, rfl⟩ := hyields
    apply begins_append
  | dropTable s =>
    cases hd
    obtain ⟨hne, parts, hparts, rfl⟩ := DropTable.yields_cql.mp hyields
    apply begins_sequenceCql (Draft.ne_nil_of_each hparts hne)
    refine Draft.forall_of_each ?_ hparts
    intro table _ part hpart
    simp only [dropTableCql, Draft.yields_bind, Draft.yields_pure, String.append_assoc] at hpart
    obtain ⟨-, -, rfl⟩ := hpart
    apply begins_append
  | alterTable s =>
    cases hd
    obtain ⟨alterations, -, hne, -, rfl⟩ :=
      @AlterTable.statements_of_yields (fun _ => True) _ _ hyields
    apply begins_sequenceCql hne
    intro part hpart
    simp only [Alterations.statements, List.mem_append, String.append_assoc] at hpart
    rcases hpart with (hpart | hpart) | hpart
    all_goals
      split at hpart
      next => cases hpart
      next =>
        rw [List.mem_singleton.mp hpart]
        apply begins_append
  | createIndex s =>
    cases hd
    simp only [CreateIndex.cql, Draft.yields_bind] at hyields
    obtain ⟨-, -, hyields⟩ := hyields
    split at hyields
    next => cases (Draft.yields_reject _ _) hyields
    next =>
      simp only [Draft.yields_bind, Draft.yields_pure, String.append_assoc] at hyields
      obtain ⟨-, -, -, -, -, -, -, -, column, -, rfl⟩ := hyields
      apply begins_append
  | dropIndex s =>
    cases hd
    simp only [DropIndex.cql, Draft.yields_bind, Draft.yields_pure, String.append_assoc] at hyields
    obtain ⟨found, -, rfl⟩ := hyields
    apply begins_append
  | _ => exact List.nil_prefix

attribute [local simp] Statement.heading

/-- How the statements of scripts can begin. -/
def Statement.headings : List String :=
  ["CREATE KEYSPACE ", "CREATE TABLE ", "DROP TABLE ", "ALTER TABLE ", "CREATE INDEX ",
   "DROP INDEX "]

theorem Statement.heading_mem {s : Statement} (h : s.heading ≠ "") :
  s.heading ∈ headings
  := by
  cases s <;> first | exact (h rfl).elim | simp [headings]

/-- How a rendering begins tells what it is a rendering of. -/
theorem Statement.heading_eq_of_begins {s : Statement} {start : String}
    (h : s.RendersAs options text) (hs : s.heading ≠ "") (hstart : start ∈ headings)
    (hbegins : Text.Begins text start) :
  s.heading = start
  := by
  have hapart : ∀ a ∈ headings, ∀ b ∈ headings, a ≠ b → Text.ApartAtStart a b := by
    decide
  by_contra hne
  exact (begins_heading h).ne hbegins (hapart _ (heading_mem hs) _ hstart hne) rfl

theorem Statement.eq_dropIndex_of_heading {s : Statement} (h : s.heading = "DROP INDEX ") :
  ∃ d, s = .dropIndex d
  := by
  cases s with
  | dropIndex d => exact ⟨d, rfl⟩
  | _ => simp at h

theorem Statement.eq_createIndex_of_heading {s : Statement} (h : s.heading = "CREATE INDEX ") :
  ∃ c, s = .createIndex c
  := by
  cases s with
  | createIndex c => exact ⟨c, rfl⟩
  | _ => simp at h

theorem Statement.eq_alterTable_of_heading {s : Statement} (h : s.heading = "ALTER TABLE ") :
  ∃ a, s = .alterTable a
  := by
  cases s with
  | alterTable a => exact ⟨a, rfl⟩
  | _ => simp at h

theorem TableSchema.heading_ne_of_mem {t : TableSchema} {s : Statement}
    (h : s ∈ t.statements options keyspace) :
  s.heading ≠ ""
  := by
  rw [TableSchema.statements] at h
  rcases List.mem_cons.mp h with rfl | h
  · simp
  · split at h
    next =>
      obtain ⟨i, -, rfl⟩ := List.mem_map.mp h
      simp
    next => cases h

theorem TableDifference.heading_ne_of_mem {d : TableDifference} {s : Statement}
    (h : s ∈ d.statements options keyspace) :
  s.heading ≠ ""
  := by
  cases d with
  | added name t => exact TableSchema.heading_ne_of_mem h
  | dropped name t =>
    rw [List.mem_singleton.mp h]
    simp
  | altered a =>
    rcases TableAlteration.mem_statements.mp h with
      ⟨i, -, rfl⟩ | ⟨k, o, n, -, rfl⟩ | ⟨-, rfl⟩ | ⟨i, -, rfl⟩
    all_goals simp

/-- The script of a catalog consists of renderings of what creates its keyspace and its tables. -/
theorem Script.exists_of_mem_ofCatalog {script : Script}
    (hscript : ofCatalog options keyspace source only = .ok script) (h : text ∈ script.statements) :
  ∃ statement, statement.heading ≠ ""
    ∧ (statement = .createKeyspace { name := keyspace, ifNotExists := true }
      ∨ ∃ name t, source.table name = .ok t ∧ statement ∈ t.statements options keyspace)
    ∧ statement.RendersAs options text
  := by
  obtain ⟨names, ts, hchosen, hread⟩ := read_of_ofCatalog hscript
  obtain ⟨script', hscript', hstatements⟩ :=
    @statements_ofCatalog options keyspace source only names ts hchosen hread
  cases hscript.symm.trans hscript'
  rw [hstatements, List.mem_append, List.mem_flatMap, List.mem_filterMap] at h
  rcases h with ⟨statement, hmem, htext⟩ | ⟨t, ht, h⟩
  · rw [spaceStatements] at hmem
    split at hmem
    next => cases hmem
    next =>
      obtain rfl := List.mem_singleton.mp hmem
      exact ⟨_, by simp, .inl rfl, Statement.text?_eq_some.mp htext⟩
  · obtain ⟨statement, hmem, htext⟩ := List.mem_filterMap.mp h
    obtain ⟨name, -, hname⟩ := (exists_of_forall₂ hread).2 t ht
    exact ⟨statement, TableSchema.heading_ne_of_mem hmem, .inr ⟨name, t, hname, hmem⟩,
      Statement.text?_eq_some.mp htext⟩

end CqlGateway

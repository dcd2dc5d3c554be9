import CqlGateway.Proofs.Catalog.Emission

/-!
# Indexes that migrations drop

An index is created under its name as a whole, while a name that is to be dropped is resolved: at
its last dot it is taken apart into a keyspace and a name, and quotes are taken away from it twice.
The two agree for the names that have no dot and no second pair of quotes, and for no others.

Main statement: `Script.dropIndex_eq_created_iff`.
-/

namespace CqlGateway

open Cql (Lexeme)

variable {options : RenderingOptions} {keyspace : String} {table text : String} {i : Index}

/-! ### Names -/

theorem Cql.Lexeme.ofBare_injective {a b : String} (h : Lexeme.ofBare a = Lexeme.ofBare b) :
  a = b
  := by
  unfold Lexeme.ofBare at h
  split at h <;> split at h <;> cases h <;> rfl

theorem TableName.lexemes_of_cql_eq {t u : TableName} (h : t.cql = u.cql) :
  t.lexemes = u.lexemes
  := by
  rw [← t.lexesTo_cql.all_eq, h, u.lexesTo_cql.all_eq]

theorem TableName.unquote_name_of_cql_eq {t u : TableName} (h : t.cql = u.cql) :
  Cql.unquote t.name = Cql.unquote u.name
  := by
  have hlast (v : TableName) : v.lexemes.getLast? = some (Lexeme.ofName v.name) := by
    unfold lexemes
    split <;> rfl
  have heq := lexemes_of_cql_eq h
  have hlasts := (hlast t).symm.trans ((congrArg List.getLast? heq).trans (hlast u))
  exact Lexeme.ofBare_injective (Option.some.inj hlasts)

/-! ### Texts -/

theorem Index.rendersAs_drop :
  (Statement.dropIndex (i.drop keyspace table)).RendersAs options text
    ↔ ∃ found, (∃ shape, resolveIndexName (.text i.name) = .ok (found, shape))
      ∧ text = "DROP INDEX IF EXISTS "
        ++ TableName.cql (if found.keyspace = "" then ⟨keyspace, found.name⟩ else found)
  := by
  have hstart : "DROP INDEX " ++ optionalText true "IF EXISTS " = "DROP INDEX IF EXISTS " := rfl
  have hyields : (i.drop keyspace table).cql.Yields text
      ↔ ∃ found, (∃ shape, resolveIndexName (.text i.name) = .ok (found, shape))
        ∧ text = "DROP INDEX IF EXISTS "
          ++ TableName.cql (if found.keyspace = "" then ⟨keyspace, found.name⟩ else found) := by
    simp only [DropIndex.cql, Index.drop, Draft.yields_bind, Draft.yields_ofExcept,
      Draft.yields_pure, hstart, Prod.exists, exists_and_right]
  rw [← hyields]
  constructor
  · intro h
    obtain ⟨d, hd, hd'⟩ := h.yields
    obtain rfl := Option.some.inj hd
    exact hd'
  · intro h
    refine Statement.rendersAs_of_yields rfl h ?_
    obtain ⟨found, -, rfl⟩ := hyields.mp h
    simp [String.append_eq_empty_iff]

/-- What drops an index names what was created exactly for names without dots whose quotes are gone
when they were taken away once. -/
theorem Index.drop_eq_created_iff
    (h : (Statement.dropIndex (i.drop keyspace table)).RendersAs options text) :
  text = "DROP INDEX IF EXISTS " ++ TableName.cql ⟨keyspace, i.name⟩
    ↔ '.' ∉ i.name.toList ∧ Cql.unquote (Cql.unquote i.name) = Cql.unquote i.name
  := by
  rw [Index.rendersAs_drop] at h
  obtain ⟨found, hfound, rfl⟩ := h
  rw [String.append_right_inj]
  rcases resolveIndexName_text_eq_ok.mp hfound with hdirect | ⟨-, hdotted⟩
  · obtain ⟨rfl, -, hdot, -⟩ := NameShape.direct?_text_eq_some.mp hdirect
    rw [if_pos rfl, and_iff_right hdot]
    constructor
    · intro heq
      have hname := TableName.unquote_name_of_cql_eq heq
      exact hname
    · intro heq
      simp only [TableName.cql, Cql.quoteIdentifier, heq]
  · obtain ⟨hdot, hplain⟩ := NameShape.dot_of_dotted? hdotted
    refine iff_of_false ?_ fun hno => hno.1 hdot
    intro heq
    apply hplain
    have hname := TableName.unquote_name_of_cql_eq heq
    rw [← Cql.dot_mem_unquote] at hdot ⊢
    rw [← hname] at hdot
    split at hdot
    all_goals exact hdot

/-- A name without a dot is dropped unless there is nothing in its quotes or it has a line break. -/
theorem Index.exists_rendersAs_drop_iff (hdot : '.' ∉ i.name.toList) (table : String) :
  (∃ text, (Statement.dropIndex (i.drop keyspace table)).RendersAs options text)
    ↔ Cql.unquote i.name ≠ "" ∧ '\n' ∉ (Cql.unquote i.name).toList
  := by
  constructor
  · rintro ⟨text, h⟩
    obtain ⟨found, hfound, -⟩ := Index.rendersAs_drop.mp h
    rcases resolveIndexName_text_eq_ok.mp hfound with hdirect | ⟨-, hdotted⟩
    · obtain ⟨-, hne, -, hbreak⟩ := NameShape.direct?_text_eq_some.mp hdirect
      exact ⟨hne, hbreak⟩
    · cases hdot (NameShape.dot_of_dotted? hdotted).1
  · rintro ⟨hne, hbreak⟩
    have hdirect := NameShape.direct?_text_eq_some.mpr ⟨rfl, hne, hdot, hbreak⟩
    exact ⟨_, Index.rendersAs_drop.mpr ⟨_, resolveIndexName_text_eq_ok.mpr (.inl hdirect), rfl⟩⟩

/-- An index with a name is created by the given text, under its name as a whole. -/
def Index.IsCreatedBy (i : Index) (keyspace table text : String) : Prop :=
  i.name ≠ "" → ∃ column, text = "CREATE INDEX IF NOT EXISTS " ++ Cql.quoteIdentifier i.name
    ++ " ON " ++ TableName.cql ⟨keyspace, table⟩ ++ " (" ++ Cql.quoteIdentifier column ++ ")"

theorem Index.isCreatedBy_of_rendersAs
    (h : (Statement.createIndex (i.create keyspace table)).RendersAs options text) :
  i.IsCreatedBy keyspace table text
  := by
  intro hname
  obtain ⟨d, hd, hyields⟩ := h.yields
  cases hd
  simp only [CreateIndex.cql, Draft.yields_bind] at hyields
  obtain ⟨-, -, hyields⟩ := hyields
  split at hyields
  next => cases (Draft.yields_reject _ _) hyields
  next =>
    simp only [Draft.yields_bind, Draft.yields_pure] at hyields
    obtain ⟨-, -, -, -, -, -, -, -, column, -, rfl⟩ := hyields
    have hstart : "CREATE INDEX " ++ optionalText true "IF NOT EXISTS "
        = "CREATE INDEX IF NOT EXISTS " := rfl
    have hnamed (text : String) : optionalText ((i.create keyspace table).name ≠ "") text = text := by
      simp [optionalText, Index.create, hname]
    have hon (rest : String) : " " ++ ("ON " ++ rest) = " ON " ++ rest := by
      rw [← String.append_assoc]
      rfl
    refine ⟨column, ?_⟩
    rw [hnamed]
    dsimp only [Index.create]
    rw [hstart]
    simp only [String.append_assoc, hon]

/-! ### Indexes of a migration -/

namespace TableDifference

/-- The indexes that a difference does away with, with the name of the table. -/
def droppedIndexes : TableDifference → List (String × Index)
  | .altered a => (a.indexes.filterMap Change.old?).map fun i => (a.new.name, i)
  | _ => []

/-- The indexes that a difference brings, with the name of the table. -/
def newIndexes : TableDifference → List (String × Index)
  | .added _ t => t.indexes.map fun i => (t.name, i)
  | .altered a => (a.indexes.filterMap Change.new?).map fun i => (a.new.name, i)
  | .dropped _ _ => []

theorem dropIndex_mem_statements {d : TableDifference} {s : DropIndex} :
  .dropIndex s ∈ d.statements options keyspace
    ↔ ∃ p ∈ d.droppedIndexes, s = p.2.drop keyspace p.1
  := by
  cases d with
  | added name t =>
    simp only [statements, TableSchema.statements, droppedIndexes]
    split <;> simp
  | dropped name t => simp [statements, droppedIndexes]
  | altered a => simp [statements, TableAlteration.mem_statements, droppedIndexes]

theorem createIndex_of_mem_statements {d : TableDifference} {s : CreateIndex}
    (h : .createIndex s ∈ d.statements options keyspace) :
  ∃ p ∈ d.newIndexes, s = p.2.create keyspace p.1
  := by
  cases d with
  | added name t =>
    obtain ⟨i, hi, rfl⟩ := TableSchema.createIndex_of_mem_statements h
    exact ⟨(t.name, i), List.mem_map_of_mem hi, rfl⟩
  | dropped name t => simp [statements] at h
  | altered a =>
    simp only [statements, TableAlteration.mem_statements] at h
    simpa [newIndexes] using h

end TableDifference

namespace Script

variable {ds : List TableDifference}

/-- A migration has the given text for the drop of an index of the given name. -/
def DropsIndexBy (options : RenderingOptions) (keyspace : String) (ds : List TableDifference)
    (name text : String) : Prop :=
  ∃ d ∈ ds, ∃ p ∈ d.droppedIndexes, p.2.name = name
    ∧ (Statement.dropIndex (p.2.drop keyspace p.1)).RendersAs options text

theorem DropsIndexBy.mem {name : String} (h : DropsIndexBy options keyspace ds name text) :
  text ∈ (migration options keyspace ds).statements
  := by
  obtain ⟨d, hd, p, hp, -, hrenders⟩ := h
  apply mem_statements_migration.mpr
  exact ⟨d, hd, _, TableDifference.dropIndex_mem_statements.mpr ⟨p, hp, rfl⟩, hrenders⟩

/-- What drops an index in a migration is the drop of an index that a difference does away with. -/
theorem exists_dropsIndexBy (h : text ∈ (migration options keyspace ds).statements)
    (hbegins : Text.Begins text "DROP INDEX ") :
  ∃ name, DropsIndexBy options keyspace ds name text
  := by
  obtain ⟨d, hd, statement, hstatement, hrenders⟩ := mem_statements_migration.mp h
  have hheading := statement.heading_eq_of_begins hrenders
    (TableDifference.heading_ne_of_mem hstatement) (by simp [Statement.headings]) hbegins
  obtain ⟨s, rfl⟩ := Statement.eq_dropIndex_of_heading hheading
  obtain ⟨p, hp, rfl⟩ := TableDifference.dropIndex_mem_statements.mp hstatement
  exact ⟨p.2.name, d, hd, p, hp, rfl, hrenders⟩

/-- What creates an index in a migration creates an index that a difference brings. -/
theorem isCreatedBy_of_migration (h : text ∈ (migration options keyspace ds).statements)
    (hbegins : Text.Begins text "CREATE INDEX ") :
  ∃ d ∈ ds, ∃ p ∈ d.newIndexes, p.2.IsCreatedBy keyspace p.1 text
  := by
  obtain ⟨d, hd, statement, hstatement, hrenders⟩ := mem_statements_migration.mp h
  have hheading := statement.heading_eq_of_begins hrenders
    (TableDifference.heading_ne_of_mem hstatement) (by simp [Statement.headings]) hbegins
  obtain ⟨s, rfl⟩ := Statement.eq_createIndex_of_heading hheading
  obtain ⟨p, hp, rfl⟩ := TableDifference.createIndex_of_mem_statements hstatement
  exact ⟨d, hd, p, hp, Index.isCreatedBy_of_rendersAs hrenders⟩

/-- What creates an index in the script of a catalog creates an index of one of its tables. -/
theorem isCreatedBy_of_ofCatalog {source : TableSource} {only : List String} {script : Script}
    (hscript : ofCatalog options keyspace source only = .ok script) (h : text ∈ script.statements)
    (hbegins : Text.Begins text "CREATE INDEX ") :
  ∃ name t, source.table name = .ok t ∧ ∃ i ∈ t.indexes, i.IsCreatedBy keyspace t.name text
  := by
  obtain ⟨statement, hne, horigin, hrenders⟩ := exists_of_mem_ofCatalog hscript h
  have hheading := statement.heading_eq_of_begins hrenders hne (by simp [Statement.headings]) hbegins
  obtain ⟨s, rfl⟩ := Statement.eq_createIndex_of_heading hheading
  rcases horigin with hspace | ⟨name, t, ht, hstatement⟩
  · cases hspace
  · obtain ⟨i, hi, rfl⟩ := TableSchema.createIndex_of_mem_statements hstatement
    exact ⟨name, t, ht, i, hi, Index.isCreatedBy_of_rendersAs hrenders⟩

/-- The statements of a migration that drop indexes are the drops of the indexes that it does away
with. Such a statement names the index that was created, in the keyspace of the migration, exactly if
the name of the index has no dot and no second pair of quotes. A name without a dot is dropped if
something is left of it without its quotes, in one line. Indexes are created under their names as a
whole, in migrations and in the scripts of catalogs. -/
theorem dropIndex_eq_created_iff (options : RenderingOptions) (keyspace : String)
    (ds : List TableDifference) :
  (∀ text ∈ (migration options keyspace ds).statements, Text.Begins text "DROP INDEX " →
      ∃ name, DropsIndexBy options keyspace ds name text)
    ∧ (∀ name text, DropsIndexBy options keyspace ds name text →
      text ∈ (migration options keyspace ds).statements
        ∧ (text = "DROP INDEX IF EXISTS " ++ TableName.cql ⟨keyspace, name⟩
          ↔ '.' ∉ name.toList ∧ Cql.unquote (Cql.unquote name) = Cql.unquote name))
    ∧ (∀ d ∈ ds, ∀ p ∈ d.droppedIndexes, '.' ∉ p.2.name.toList → Cql.unquote p.2.name ≠ "" →
      '\n' ∉ (Cql.unquote p.2.name).toList →
        ∃ text, DropsIndexBy options keyspace ds p.2.name text)
    ∧ (∀ text ∈ (migration options keyspace ds).statements, Text.Begins text "CREATE INDEX " →
      ∃ d ∈ ds, ∃ p ∈ d.newIndexes, p.2.IsCreatedBy keyspace p.1 text)
    ∧ ∀ source only script, ofCatalog options keyspace source only = .ok script →
      ∀ text ∈ script.statements, Text.Begins text "CREATE INDEX " →
        ∃ name t, source.table name = .ok t ∧ ∃ i ∈ t.indexes, i.IsCreatedBy keyspace t.name text
  := by
  refine ⟨fun text => exists_dropsIndexBy, ?_, ?_, fun text => isCreatedBy_of_migration,
    fun source only script hscript text => isCreatedBy_of_ofCatalog hscript⟩
  · intro name text h
    refine ⟨h.mem, ?_⟩
    obtain ⟨d, hd, p, hp, rfl, hrenders⟩ := h
    exact Index.drop_eq_created_iff hrenders
  · intro d hd p hp hdot hne hbreak
    obtain ⟨text, hrenders⟩ := (Index.exists_rendersAs_drop_iff hdot p.1).mpr ⟨hne, hbreak⟩
    exact ⟨text, d, hd, p, hp, rfl, hrenders⟩

/-- A table with an index whose name has a dot, and one whose name has a blank. -/
def indexedNotes : TableSchema where
  name := "t"
  columns := [{ name := "id", sourceType := "int", primaryKey := true },
    { name := "a", sourceType := "text" }]
  indexes := [{ name := "a.idx", columns := ["a"] }, { name := "by a", columns := ["a"] }]

/-- The same table without indexes. -/
def plainNotes : TableSchema :=
  { indexedNotes with indexes := [] }

theorem dropIndex_blankName :
  DropsIndexBy {} "shop" (Catalog.Tables.compare [("t", indexedNotes)] [("t", plainNotes)]) "by a"
      "DROP INDEX IF EXISTS shop.\"by a\""
    ∧ "DROP INDEX IF EXISTS shop.\"by a\""
      = "DROP INDEX IF EXISTS " ++ TableName.cql ⟨"shop", "by a"⟩
  := by
  have hdrops : DropsIndexBy {} "shop"
      (Catalog.Tables.compare [("t", indexedNotes)] [("t", plainNotes)]) "by a"
      "DROP INDEX IF EXISTS shop.\"by a\"" := by
    refine ⟨.altered (.between indexedNotes plainNotes), by decide,
      ("t", { name := "by a", columns := ["a"] }), by decide, rfl,
      ⟨"DROP INDEX IF EXISTS shop.\"by a\"", []⟩, ?_, rfl⟩
    decide
  obtain ⟨-, hnames, -⟩ := dropIndex_eq_created_iff {} "shop"
    (Catalog.Tables.compare [("t", indexedNotes)] [("t", plainNotes)])
  exact ⟨hdrops, (hnames _ _ hdrops).2.mpr (by decide)⟩

/-- The index `a.idx` of a table in the keyspace `shop` is created, and what is dropped is the index
`idx` in a keyspace `a`. -/
theorem dropIndex_dottedName :
  (∃ script, ofCatalog {} "shop" { names := .ok ["t"], table := fun _ => .ok indexedNotes } []
      = .ok script ∧ "CREATE INDEX IF NOT EXISTS \"a.idx\" ON shop.t (a)" ∈ script.statements)
    ∧ DropsIndexBy {} "shop" (Catalog.Tables.compare [("t", indexedNotes)] [("t", plainNotes)]) "a.idx"
      "DROP INDEX IF EXISTS a.idx"
    ∧ TableName.cql ⟨"shop", "a.idx"⟩ = "shop.\"a.idx\""
  := by
  refine ⟨⟨_, rfl, by decide⟩, ?_, by decide⟩
  refine ⟨.altered (.between indexedNotes plainNotes), by decide,
    ("t", { name := "a.idx", columns := ["a"] }), by decide, rfl,
    ⟨"DROP INDEX IF EXISTS a.idx", []⟩, ?_, rfl⟩
  decide

end Script

end CqlGateway

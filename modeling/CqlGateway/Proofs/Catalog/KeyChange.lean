import CqlGateway.Proofs.Catalog.Comparison
import CqlGateway.Proofs.Catalog.Emission
import CqlGateway.Proofs.Catalog.Migration
import CqlGateway.Proofs.Text.Case

/-!
# Changes of primary keys

Two versions of a table are compared by the keys that they list, while a table is created with the
key that is found from its list: the listed columns are looked up among those that are declared, and
where none is listed, the columns that are marked or a column called `id` take their place. A
migration tells of a change of the keys that the versions are created with if a key is listed and
its columns are declared by the names that are listed. It says nothing if no key is listed.

Main statement: `Script.keyWarning_or_key_kept`.
-/

namespace CqlGateway

open Catalog (Tables)

variable {options : RenderingOptions} {keyspace : String}
variable {cs : List (Change Column)} {key : List String} {text : String} {source : TableSource}
  {d : Definition}

/-! ### The key of a table -/

namespace TableSchema

variable {t o n : TableSchema}

/-- The primary key that a table is created with, if it can have one. -/
def effectiveKey? (t : TableSchema) (keyspace : String) : Option (List String) :=
  match (t.createTable keyspace).key t.columns with
  | .ok (key, _) => some key
  | .error _ => none

theorem effectiveKey?_eq_some :
  t.effectiveKey? keyspace = some key ↔ ((t.createTable keyspace).key t.columns).Yields key
  := by
  unfold effectiveKey? Draft.Yields
  rcases (t.createTable keyspace).key t.columns with r | ⟨found, ws⟩
  · simp
  · constructor
    · rintro ⟨⟩
      exact ⟨ws, rfl⟩
    · rintro ⟨vs, ⟨⟩⟩
      rfl

/-- Each column of the listed key is declared by the name that is listed. -/
def DeclaresKey (t : TableSchema) : Prop :=
  ∀ k ∈ t.primaryKey, (Column.find? t.columns (Cql.unquote k)).map Column.name = some k
  deriving Decidable

theorem DeclaresKey.effectiveKey? (h : t.DeclaresKey) (hne : t.primaryKey ≠ [])
    (keyspace : String) :
  t.effectiveKey? keyspace = some t.primaryKey
  := by
  rw [effectiveKey?_eq_some]
  have hempty : t.primaryKey.isEmpty = false := by simpa using hne
  rw [CreateTable.key, createTable, hempty]
  apply Draft.yields_each_self
  intro k hk
  obtain ⟨c, hfind, hname⟩ := Option.map_eq_some_iff.mp (h k hk)
  rw [keyColumn, hfind]
  exact (Draft.yields_pure _ _).mpr hname.symm

theorem declared_of_effectiveKey? (h : t.effectiveKey? keyspace = some key) :
  key ≠ [] ∧ ∀ k ∈ key, ∃ c ∈ t.columns, c.name = k
  := by
  rw [effectiveKey?_eq_some, CreateTable.key] at h
  split at h
  next hlisted =>
    have hkeys := (Draft.yields_each _ _ _).mp h
    constructor
    · rintro rfl
      simp [List.forall₂_nil_right_iff.mp hkeys] at hlisted
    · intro k hk
      obtain ⟨listed, -, hfound⟩ := (exists_of_forall₂ hkeys).2 k hk
      unfold keyColumn at hfound
      split at hfound
      next c hfind =>
        exact ⟨c, List.mem_of_find?_eq_some hfind, ((Draft.yields_pure _ _).mp hfound).symm⟩
      next => cases (Draft.yields_reject _ _) hfound
  next =>
    split at h
    next =>
      split at h
      next c hfind =>
        simp only [Draft.yields_bind, Draft.yields_pure] at h
        obtain ⟨-, -, rfl⟩ := h
        refine ⟨by simp, ?_⟩
        intro k hk
        rw [List.mem_singleton.mp hk]
        exact ⟨c, List.mem_of_find?_eq_some hfind, rfl⟩
      next => cases (Draft.yields_reject _ _) h
    next hmarked =>
      obtain rfl := (Draft.yields_pure _ _).mp h
      refine ⟨hmarked, ?_⟩
      intro k hk
      obtain ⟨c, hc, rfl⟩ := List.mem_map.mp hk
      exact ⟨c, List.mem_of_mem_filter hc, rfl⟩

/-- Two versions of a table at least one of which lists a key, and whose listed keys are declared. -/
structure ListKeys (o n : TableSchema) : Prop where
  listed : o.primaryKey ≠ [] ∨ n.primaryKey ≠ []
  old_declared : o.DeclaresKey
  new_declared : n.DeclaresKey

instance (o n : TableSchema) : Decidable (o.ListKeys n) :=
  decidable_of_iff
    ((o.primaryKey ≠ [] ∨ n.primaryKey ≠ []) ∧ o.DeclaresKey ∧ n.DeclaresKey)
    ⟨fun ⟨a, b, c⟩ => ⟨a, b, c⟩, fun ⟨a, b, c⟩ => ⟨a, b, c⟩⟩

theorem ListKeys.ne_nil_of_eq (h : o.ListKeys n) (heq : o.primaryKey = n.primaryKey) :
  o.primaryKey ≠ []
  := by
  rcases h.listed with ho | hn
  · exact ho
  · rwa [heq]

theorem ListKeys.exists_key (h : o.ListKeys n) (heq : o.primaryKey = n.primaryKey)
    (keyspace : String) :
  ∃ key, o.effectiveKey? keyspace = some key ∧ n.effectiveKey? keyspace = some key
  := by
  have ho := h.ne_nil_of_eq heq
  use o.primaryKey, h.old_declared.effectiveKey? ho keyspace
  rw [heq]
  exact h.new_declared.effectiveKey? (heq ▸ ho) keyspace

end TableSchema

/-! ### Names -/

/-- Names that the store has in common differ in the case of letters only. -/
theorem Cql.lower_eq_of_storedName_eq {a b : String} (ha : unquote a = a) (hb : unquote b = b)
    (h : storedName a = storedName b) :
  Text.lower a = Text.lower b
  := by
  have hlower {name : String} (hname : unquote name = name) :
      Text.lower (storedName name) = Text.lower name := by
    rw [storedName, hname]
    split
    next => exact Text.lower_lower name
    next => rfl
  rw [← hlower ha, h, hlower hb]

/-! ### Alterations -/

namespace Definition

/-- The table that a definition alters. -/
def altered? : Definition → Option TableName
  | .addColumns table _ | .dropColumns table _ => some table
  | _ => none

/-- The columns that a definition drops. -/
def droppedColumns : Definition → List String
  | .dropColumns _ columns => columns
  | _ => []

end Definition

theorem altered?_of_mem_storedColumnDefinitions {table : TableName}
    (h : d ∈ storedColumnDefinitions table cs) :
  d.altered? = some table.stored
  := by
  rw [storedColumnDefinitions, List.mem_append] at h
  rcases h with h | h
  all_goals
    split at h
    next => cases h
    next =>
      rw [List.mem_singleton.mp h]
      rfl

theorem exists_dropped_of_mem_droppedColumns {table : TableName}
    (h : d ∈ storedColumnDefinitions table cs) {column : String}
    (hcolumn : column ∈ d.droppedColumns) :
  ∃ c ∈ cs.filterMap Change.dropped?, Cql.storedName c.name = column
  := by
  rw [storedColumnDefinitions, List.mem_append] at h
  rcases h with h | h
  · split at h
    next => cases h
    next =>
      rw [List.mem_singleton.mp h] at hcolumn
      cases hcolumn
  · split at h
    next => cases h
    next =>
      rw [List.mem_singleton.mp h] at hcolumn
      exact List.mem_map.mp hcolumn

/-- Columns that are added and dropped have names, or there is no statement for them. -/
theorem Alterations.names_of_yields_addAll {table : TableName} {a b : Alterations}
    (h : (Alterations.addAll table a (Script.columnSpecs cs)).Yields b) :
  (∀ c ∈ cs.filterMap Change.added?, c.name ≠ "") ∧ ∀ c ∈ cs.filterMap Change.dropped?, c.name ≠ ""
  := by
  induction cs generalizing a with
  | nil => simp
  | cons c cs ih =>
    simp only [List.filterMap_cons]
    cases c with
    | dropped k o =>
      simp only [Change.added?, Change.dropped?, List.forall_mem_cons]
      change (addAll table a
        ({ action := "drop", column := { name := o.name } } :: Script.columnSpecs cs)).Yields b at h
      rw [addAll, Draft.yields_bind] at h
      obtain ⟨next, hnext, hrest⟩ := h
      obtain ⟨hadded, hdropped⟩ := ih hrest
      have hname : o.name ≠ "" := by
        rintro hempty
        simp [Alterations.add, AlterSpec.columnName, hempty] at hnext
      exact ⟨hadded, hname, hdropped⟩
    | added k n =>
      simp only [Change.added?, Change.dropped?, List.forall_mem_cons]
      change (addAll table a ({ action := "add", column := n } :: Script.columnSpecs cs)).Yields b at h
      rw [addAll, Draft.yields_bind] at h
      obtain ⟨next, hnext, hrest⟩ := h
      obtain ⟨hadded, hdropped⟩ := ih hrest
      have hname : n.name ≠ "" := by
        rintro hempty
        simp [Alterations.add, hempty] at hnext
      exact ⟨⟨hname, hadded⟩, hdropped⟩
    | modified k o n => exact ih h

/-- The text of the statement that adds and drops columns makes the definitions that add and drop
them. -/
theorem Statement.ofText?_of_columnSpecs {table : TableName}
    (h : (Statement.alterTable { table := table, specs := some (Script.columnSpecs cs) }).RendersAs
      options text) :
  table.name ≠ "" ∧ Definition.ofText? text = some (storedColumnDefinitions table cs)
  := by
  obtain ⟨d, hd, hyields⟩ := h.yields
  cases hd
  simp only [AlterTable.cql, Draft.yields_bind, Draft.yields_rejectIf, Option.getD_some,
    decide_eq_false_iff_not, List.isEmpty_eq_false_iff] at hyields
  obtain ⟨-, htable, -, hne, alterations, hadd, -⟩ := hyields
  obtain ⟨hadded, hdropped⟩ := Alterations.names_of_yields_addAll hadd
  obtain ⟨text', ⟨r', hr', rfl⟩, htext'⟩ :=
    Statement.defines_storedColumns options htable hadded hdropped hne
  obtain ⟨r, hr, rfl⟩ := h
  cases hr.symm.trans hr'
  exact ⟨htable, htext'⟩

theorem TableSchema.not_mem_droppedColumns {o n : TableSchema}
    (ho : o.effectiveKey? keyspace = some key) (hn : n.effectiveKey? keyspace = some key)
    (hnames : ∀ c ∈ o.columns, Cql.unquote c.name = c.name) {table : TableName}
    (hd : d ∈ storedColumnDefinitions table (TableAlteration.between o n).columns) {column : String}
    (hcolumn : column ∈ d.droppedColumns) :
  column ∉ key.map Cql.storedName
  := by
  intro hmem
  obtain ⟨k, hk, rfl⟩ := List.mem_map.mp hmem
  obtain ⟨c, hc, hstored⟩ := exists_dropped_of_mem_droppedColumns hd hcolumn
  obtain ⟨letters, hlast, hnone⟩ := mem_dropped.mp hc
  obtain ⟨hold, hletters⟩ := mem_of_lastOf? hlast
  obtain ⟨old, hold', rfl⟩ := (declared_of_effectiveKey? ho).2 k hk
  obtain ⟨new, hnew, hname⟩ := (declared_of_effectiveKey? hn).2 _ hk
  have hlower := Cql.lower_eq_of_storedName_eq (hnames c hold) (hnames old hold') hstored
  apply lastOf?_eq_none.mp hnone new hnew
  rw [hname, ← hlower, hletters]

/-! ### Migrations -/

theorem TableSource.Gives.exists_tables {c : Tables} (h : source.Gives c)
    {names : List String} (hnames : ∀ name ∈ names, name ∈ c.names) :
  ∃ ts, List.Forall₂ (fun name t => source.table name = .ok t) names ts
  := by
  induction names with
  | nil => exact ⟨[], .nil⟩
  | cons name names ih =>
    rw [List.forall_mem_cons, ← Tables.get?_isSome_iff, Option.isSome_iff_exists] at hnames
    obtain ⟨⟨t, ht⟩, hrest⟩ := hnames
    obtain ⟨ts, hts⟩ := ih hrest
    exact ⟨t :: ts, .cons (h.table name t ht) hts⟩

/-- What alters a table in a difference and has a form in CQL adds and drops columns. -/
theorem TableDifference.alterTable_of_mem_statements {d : TableDifference} {s : AlterTable}
    (h : .alterTable s ∈ d.statements options keyspace)
    (hrenders : (Statement.alterTable s).RendersAs options text) :
  ∃ a, d = .altered a
    ∧ s = { table := ⟨keyspace, a.new.name⟩, specs := some (Script.columnSpecs a.columns) }
  := by
  cases d with
  | added name t =>
    simp only [statements, TableSchema.statements] at h
    split at h <;> simp at h
  | dropped name t => simp [statements] at h
  | altered a =>
    use a, rfl
    rcases TableAlteration.mem_statements.mp h with
      ⟨i, -, hs⟩ | ⟨k, o, n, -, hs⟩ | ⟨-, hs⟩ | ⟨i, -, hs⟩
    · cases hs
    · cases hs
      obtain ⟨f, hf⟩ := Statement.render_modification options ⟨keyspace, a.new.name⟩ n
      obtain ⟨r, hr, -⟩ := hrenders
      cases hf.symm.trans hr
    · cases hs
      rfl
    · cases hs

namespace Script

variable {old new : Tables} {name : String}

theorem altered_mem_compare {o n : TableSchema} (ho : old.get? name = some o)
    (hn : new.get? name = some n) (hne : o.primaryKey ≠ n.primaryKey) :
  .altered (.between o n) ∈ old.compare new
  := by
  apply Tables.mem_compare.mpr
  use name
  have hchanged : (TableAlteration.between o n).keyChanged = true := decide_eq_true hne
  rw [TableDifference.at?, ho, hn]
  simp [TableAlteration.isEmpty, hchanged]

theorem between_of_mem_compare {a : TableAlteration} (h : .altered a ∈ old.compare new) :
  ∃ name o n, old.get? name = some o ∧ new.get? name = some n ∧ a = .between o n
  := by
  obtain ⟨name, hat⟩ := Tables.mem_compare.mp h
  unfold TableDifference.at? at hat
  split at hat
  next => cases hat
  next => cases hat
  next => cases hat
  next o n ho hn =>
    dsimp only at hat
    split at hat
    next => cases hat
    next =>
      cases hat
      exact ⟨name, o, n, ho, hn, rfl⟩

/-- What alters a table in a migration adds and drops columns between two versions. -/
theorem exists_versions_of_alterTable
    (h : text ∈ (migration options keyspace (old.compare new)).statements)
    (hbegins : Text.Begins text "ALTER TABLE ") :
  ∃ name o n, old.get? name = some o ∧ new.get? name = some n ∧ n.name ≠ ""
    ∧ Definition.ofText? text
      = some (storedColumnDefinitions ⟨keyspace, n.name⟩ (TableAlteration.between o n).columns)
  := by
  obtain ⟨d, hd, statement, hstatement, hrenders⟩ := mem_statements_migration.mp h
  have hheading := statement.heading_eq_of_begins hrenders
    (TableDifference.heading_ne_of_mem hstatement) (by simp [Statement.headings]) hbegins
  obtain ⟨s, rfl⟩ := Statement.eq_alterTable_of_heading hheading
  obtain ⟨a, rfl, htable⟩ := TableDifference.alterTable_of_mem_statements hstatement hrenders
  obtain ⟨name, o, n, ho, hn, rfl⟩ := between_of_mem_compare hd
  subst htable
  obtain ⟨hname, htext⟩ := Statement.ofText?_of_columnSpecs hrenders
  exact ⟨name, o, n, ho, hn, hname, htext⟩

/-- What creates a table of a catalog and has a form in CQL is in the script of the catalog. -/
theorem mem_statements_of_gives (hsource : source.Gives old) {o : TableSchema}
    (ho : old.get? name = some o) {statement : Statement}
    (hstatement : statement ∈ o.statements options keyspace)
    (hrenders : statement.RendersAs options text) :
  ∃ script, ofCatalog options keyspace source [] = .ok script ∧ text ∈ script.statements
  := by
  obtain ⟨names, hnames, hperm⟩ := hsource.names
  have hmem : name ∈ names := by
    rw [hperm.mem_iff, ← Tables.get?_isSome_iff, ho]
    rfl
  obtain ⟨ts, hts⟩ := hsource.exists_tables fun name hname => hperm.mem_iff.mp hname
  obtain ⟨t, ht, hread⟩ := (exists_of_forall₂ hts).1 name hmem
  cases hread.symm.trans (hsource.table name o ho)
  have hchosen : source.chosen [] = .ok names := by
    rw [TableSource.chosen, hnames]
    rfl
  obtain ⟨script, hscript, hstatements⟩ :=
    @statements_ofCatalog options keyspace source [] names ts hchosen hts
  refine ⟨script, hscript, ?_⟩
  rw [hstatements, List.mem_append, List.mem_flatMap]
  exact .inr ⟨_, ht, List.mem_filterMap.mpr ⟨_, hstatement, Statement.text?_eq_some.mpr hrenders⟩⟩

/-- A table that can have a key is created by the script of its catalog. -/
theorem exists_createTable_of_ofCatalog (hsource : source.Gives old) {o : TableSchema}
    (ho : old.get? name = some o) (hname : o.name ≠ "") (hkey : o.effectiveKey? keyspace = some key)
    (options : RenderingOptions) :
  ∃ script, ofCatalog options keyspace source [] = .ok script
    ∧ ∃ created ∈ script.statements, Definition.ofText? created
      = some [.createTable (TableName.stored ⟨keyspace, o.name⟩) (o.columns.map Column.stored)
        (key.map Cql.storedName)]
  := by
  obtain ⟨hne, hdeclared⟩ := TableSchema.declared_of_effectiveKey? hkey
  have hcolumns : o.columns ≠ [] := by
    obtain ⟨k, hk⟩ := List.exists_mem_of_ne_nil _ hne
    obtain ⟨c, hc, -⟩ := hdeclared k hk
    exact List.ne_nil_of_mem hc
  obtain ⟨created, hrenders, hdefines⟩ := TableSchema.defines_createTable options hname hcolumns
    (TableSchema.effectiveKey?_eq_some.mp hkey) hne
  obtain ⟨script, hscript, hmem⟩ := mem_statements_of_gives hsource ho
    (List.mem_cons_self : _ ∈ o.statements options keyspace) hrenders
  exact ⟨script, hscript, created, hmem, hdefines⟩

/-- Of two versions of a table at least one of which lists a key, and whose listed keys are declared,
either the change of the key is told, or both are created with the same key. What alters a table is
about two versions of it. If both are created with the same key, none of its columns is dropped, and
the script of the old catalog has created the table. -/
theorem keyWarning_or_key_kept (options : RenderingOptions) (keyspace : String)
    {old : Tables} (new : Tables) {source : TableSource}
    (hsource : source.Gives old) :
  (∀ name o n, old.get? name = some o → new.get? name = some n → o.ListKeys n →
      keyWarning n.name ∈ (migration options keyspace (old.compare new)).warnings
        ∨ ∃ key, o.effectiveKey? keyspace = some key ∧ n.effectiveKey? keyspace = some key)
    ∧ ∀ text ∈ (migration options keyspace (old.compare new)).statements,
      Text.Begins text "ALTER TABLE " →
      ∃ name o n ds, old.get? name = some o ∧ new.get? name = some n
        ∧ Definition.ofText? text = some ds
        ∧ (∀ d ∈ ds, d.altered? = some (TableName.stored ⟨keyspace, n.name⟩))
        ∧ (o.name = n.name → (∀ c ∈ o.columns, Cql.unquote c.name = c.name) →
          ∀ key, o.effectiveKey? keyspace = some key → n.effectiveKey? keyspace = some key →
            (∀ d ∈ ds, ∀ column ∈ d.droppedColumns, column ∉ key.map Cql.storedName)
            ∧ ∃ script, ofCatalog options keyspace source [] = .ok script
              ∧ ∃ created ∈ script.statements, Definition.ofText? created
                = some [.createTable (TableName.stored ⟨keyspace, n.name⟩)
                  (o.columns.map Column.stored) (key.map Cql.storedName)])
  := by
  constructor
  · intro name o n ho hn hkeys
    by_cases heq : o.primaryKey = n.primaryKey
    · right
      exact hkeys.exists_key heq keyspace
    · left
      exact keyWarning_mem_migration (altered_mem_compare ho hn heq) (decide_eq_true heq)
  · intro text htext hbegins
    obtain ⟨name, o, n, ho, hn, hname, hread⟩ := exists_versions_of_alterTable htext hbegins
    refine ⟨name, o, n, _, ho, hn, hread, ?_, ?_⟩
    · intro d hd
      exact altered?_of_mem_storedColumnDefinitions hd
    · intro hsame hnames key hkeyOld hkeyNew
      constructor
      · intro d hd column hcolumn
        exact TableSchema.not_mem_droppedColumns hkeyOld hkeyNew hnames hd hcolumn
      · have hcreated :=
          exists_createTable_of_ofCatalog hsource ho (hsame ▸ hname) hkeyOld options
        rwa [hsame] at hcreated

/-- A table with a key of one column. -/
def keyedUsers : Tables :=
  [("users", { name := "users"
               columns := [{ name := "id", sourceType := "int", primaryKey := true },
                 { name := "mail", sourceType := "text" }, { name := "age", sourceType := "int" }] })]

/-- The table with a key of two columns, one of them new, and without the age. -/
def rekeyedUsers : Tables :=
  [("users", { name := "users"
               columns := [{ name := "id", sourceType := "int", primaryKey := true },
                 { name := "realm", sourceType := "text", primaryKey := true },
                 { name := "mail", sourceType := "text" }] })]

theorem keyWarning_rekeyedUsers :
  keyedUsers.source.Gives keyedUsers
    ∧ (migration {} "shop" (keyedUsers.compare rekeyedUsers)).statements
      = ["ALTER TABLE shop.users ADD realm text;\nALTER TABLE shop.users DROP age;"]
    ∧ keyWarning "users" ∈ (migration {} "shop" (keyedUsers.compare rekeyedUsers)).warnings
  := by
  refine ⟨keyedUsers.gives_source, by decide, ?_⟩
  obtain ⟨htold, -⟩ := keyWarning_or_key_kept {} "shop" rekeyedUsers keyedUsers.gives_source
  rcases htold "users" _ _ rfl rfl (by decide) with hwarning | ⟨key, hold, hnew⟩
  · exact hwarning
  · have hkeys := hold.trans hnew.symm
    revert hkeys
    decide

/-- A table without a key in the catalog, which is created with the column `id` as its key. -/
def unkeyedNotes : TableSchema where
  name := "t"
  columns := [{ name := "id", sourceType := "int" }, { name := "a", sourceType := "text" }]

/-- The table without the column `id`, which cannot be created. -/
def notesWithoutId : TableSchema where
  name := "t"
  columns := [{ name := "a", sourceType := "text" }]

/-- The key is dropped, and nothing is said. -/
theorem migration_drops_assumedKey :
  unkeyedNotes.effectiveKey? "" = some ["id"] ∧ notesWithoutId.effectiveKey? "" = none
    ∧ (migration {} "" (Tables.compare [("t", unkeyedNotes)] [("t", notesWithoutId)])).statements
      = ["ALTER TABLE t DROP id"]
    ∧ (migration {} "" (Tables.compare [("t", unkeyedNotes)] [("t", notesWithoutId)])).warnings
      = []
  := by
  refine ⟨?_, ?_, ?_, ?_⟩
  all_goals decide

end Script

end CqlGateway

import CqlGateway.Proofs.Catalog.Patch
import CqlGateway.Proofs.Catalog.Scripting

/-!
# Comparing catalogs

The comparison of two catalogs is exact: it holds the tables of one catalog only and those that do
not agree, each once and in the order of names. What it says of a table is a patch that leads from
the old version to the new one, and the comparison in the other direction is its mirror image.

Main statement: `Catalog.Tables.compare_isExact`.
-/

namespace CqlGateway

/-! ### Tables that agree -/

/-- Columns of the same type up to letter case that are declared alike in all else that is
compared. -/
structure Column.IsAlike (a b : Column) : Prop where
  sourceType : Text.fold a.sourceType = Text.fold b.sourceType
  nullable : a.nullable = b.nullable
  defaultValue : a.defaultValue = b.defaultValue
  autoIncrement : a.autoIncrement = b.autoIncrement

theorem Column.declaredAlike_iff {a b : Column} :
  a.declaredAlike b = true ↔ a.IsAlike b
  := by
  simp only [declaredAlike, Text.equalFold, Bool.and_eq_true, beq_iff_eq, decide_eq_true_eq]
  constructor
  · rintro ⟨⟨⟨htype, hnull⟩, hauto⟩, hdefault⟩
    exact ⟨htype, hnull, hdefault, hauto⟩
  · rintro ⟨htype, hnull, hdefault, hauto⟩
    exact ⟨⟨⟨htype, hnull⟩, hauto⟩, hdefault⟩

theorem Column.declaredAlike_comm (a b : Column) :
  a.declaredAlike b = b.declaredAlike a
  := by
  rw [Bool.eq_iff_iff, declaredAlike_iff, declaredAlike_iff]
  constructor
  · rintro ⟨htype, hnull, hdefault, hauto⟩
    exact ⟨htype.symm, hnull.symm, hdefault.symm, hauto.symm⟩
  · rintro ⟨htype, hnull, hdefault, hauto⟩
    exact ⟨htype.symm, hnull.symm, hdefault.symm, hauto.symm⟩

/-- Indexes on the same columns, both unique or neither of them. -/
structure Index.IsAlike (a b : Index) : Prop where
  columns : a.columns = b.columns
  unique : a.unique = b.unique

theorem Index.declaredAlike_iff {a b : Index} :
  a.declaredAlike b = true ↔ a.IsAlike b
  := by
  simp only [declaredAlike, Bool.and_eq_true, decide_eq_true_eq]
  exact ⟨fun ⟨hunique, hcolumns⟩ => ⟨hcolumns, hunique⟩,
    fun ⟨hcolumns, hunique⟩ => ⟨hunique, hcolumns⟩⟩

theorem Index.declaredAlike_comm (a b : Index) :
  a.declaredAlike b = b.declaredAlike a
  := by
  rw [Bool.eq_iff_iff, declaredAlike_iff, declaredAlike_iff]
  exact ⟨fun ⟨hcolumns, hunique⟩ => ⟨hcolumns.symm, hunique.symm⟩,
    fun ⟨hcolumns, hunique⟩ => ⟨hcolumns.symm, hunique.symm⟩⟩

namespace TableSchema

/-- A table with no column twice, up to letter case, and no secondary index or foreign key twice. -/
structure HasDistinctNames (t : TableSchema) : Prop where
  columns : (t.columns.map fun c => Text.lower c.name).Nodup
  indexes : (t.secondaryIndexes.map Index.name).Nodup
  foreignKeys : (t.foreignKeys.map ForeignKey.name).Nodup

theorem hasDistinctNames_iff (t : TableSchema) :
  (t.columns.map fun c => Text.lower c.name).Nodup ∧ (t.secondaryIndexes.map Index.name).Nodup
    ∧ (t.foreignKeys.map ForeignKey.name).Nodup ↔ t.HasDistinctNames
  := by
  constructor
  · rintro ⟨hcolumns, hindexes, hforeignKeys⟩
    exact ⟨hcolumns, hindexes, hforeignKeys⟩
  · rintro ⟨hcolumns, hindexes, hforeignKeys⟩
    exact ⟨hcolumns, hindexes, hforeignKeys⟩

instance (t : TableSchema) : Decidable t.HasDistinctNames :=
  decidable_of_iff _ t.hasDistinctNames_iff

/-- Tables with the same primary key and, matched by name, with columns and secondary indexes that
are alike and the same foreign keys. -/
structure Agrees (o n : TableSchema) : Prop where
  primaryKey : o.primaryKey = n.primaryKey
  columns : Matches (fun c => Text.lower c.name) Column.IsAlike o.columns n.columns
  indexes : Matches Index.name Index.IsAlike o.secondaryIndexes n.secondaryIndexes
  foreignKeys : Matches ForeignKey.name Eq o.foreignKeys n.foreignKeys

end TableSchema

/-! ### Two versions of a table -/

namespace TableAlteration

variable {o n : TableSchema}

/-- Two versions of a table do not differ exactly if they agree. -/
theorem isEmpty_between (ho : o.HasDistinctNames) (hn : n.HasDistinctNames) :
  (between o n).isEmpty = true ↔ o.Agrees n
  := by
  have hcolumns : (fun a b => Column.declaredAlike a b = true) = Column.IsAlike := by
    funext a b
    exact propext Column.declaredAlike_iff
  have hindexes : (fun a b => Index.declaredAlike a b = true) = Index.IsAlike := by
    funext a b
    exact propext Index.declaredAlike_iff
  have hforeignKeys : (fun a b : ForeignKey => decide (a = b) = true) = Eq := by
    funext a b
    exact propext decide_eq_true_iff
  simp only [isEmpty, between, Bool.and_eq_true, Bool.not_eq_true', decide_eq_false_iff_not,
    List.isEmpty_iff, not_not]
  rw [changes_eq_nil_iff ho.columns hn.columns, changes_eq_nil_iff ho.indexes hn.indexes,
    changes_eq_nil_iff ho.foreignKeys hn.foreignKeys, hcolumns, hindexes, hforeignKeys]
  constructor
  · rintro ⟨⟨⟨hkey, hcols⟩, hinds⟩, hfks⟩
    exact ⟨hkey, hcols, hinds, hfks⟩
  · rintro ⟨hkey, hcols, hinds, hfks⟩
    exact ⟨⟨⟨hkey, hcols⟩, hinds⟩, hfks⟩

/-- The changes of a table are arranged, and carrying them out leads from the old version to the new
one; columns that are alike stay as they are. -/
structure IsPatch (a : TableAlteration) : Prop where
  keyChanged : a.keyChanged = true ↔ a.old.primaryKey ≠ a.new.primaryKey
  columns : IsArranged (fun c => Text.lower c.name) Column.declaredAlike a.old.columns
    a.new.columns a.columns
  indexes : IsArranged Index.name Index.declaredAlike a.old.secondaryIndexes
    a.new.secondaryIndexes a.indexes
  foreignKeys : IsArranged ForeignKey.name (· = ·) a.old.foreignKeys a.new.foreignKeys a.foreignKeys
  columns_enacted : ∃ columns,
    enactAll? (fun c => Text.lower c.name) a.old.columns a.columns = some columns
      ∧ Matches (fun c => Text.lower c.name) (fun c d => c = d ∨ c ∈ a.old.columns ∧ c.IsAlike d)
        columns a.new.columns
  indexes_enacted : ∃ indexes, enactAll? Index.name a.old.secondaryIndexes a.indexes = some indexes
    ∧ indexes.Perm a.new.secondaryIndexes
  foreignKeys_enacted : ∃ foreignKeys,
    enactAll? ForeignKey.name a.old.foreignKeys a.foreignKeys = some foreignKeys
      ∧ foreignKeys.Perm a.new.foreignKeys

theorem eq_of_isAlike {i j : Index} (hi : i ∈ o.secondaryIndexes) (hj : j ∈ n.secondaryIndexes)
    (hname : i.name = j.name) (halike : i.IsAlike j) :
  i = j
  := by
  have hprimary {t : TableSchema} {i : Index} (h : i ∈ t.secondaryIndexes) : i.primary = false := by
    simpa using (List.mem_filter.mp h).2
  have hi := hprimary hi
  have hj := hprimary hj
  obtain ⟨hcolumns, hunique⟩ := halike
  cases i
  cases j
  simp_all

theorem isPatch_between (ho : o.HasDistinctNames) (hn : n.HasDistinctNames) :
  (between o n).IsPatch
  := by
  constructor
  case keyChanged => exact decide_eq_true_iff
  case columns => apply isArranged_changes
  case indexes => apply isArranged_changes
  case foreignKeys => apply isArranged_changes
  case columns_enacted =>
    obtain ⟨columns, hcolumns, -, hmatches⟩ :=
      enactAll?_changes Column.declaredAlike ho.columns hn.columns
    refine ⟨columns, hcolumns, hmatches.keys, ?_⟩
    intro c hc d hd hkey
    exact (hmatches.related c hc d hd hkey).imp_right
      (And.imp_right Column.declaredAlike_iff.mp)
  case indexes_enacted =>
    obtain ⟨indexes, hindexes, hnodup, hmatches⟩ :=
      enactAll?_changes Index.declaredAlike ho.indexes hn.indexes
    refine ⟨indexes, hindexes, hmatches.perm hnodup ?_⟩
    rintro i hi j hj hname (rfl | ⟨hold, halike⟩)
    · rfl
    · exact eq_of_isAlike hold hj hname (Index.declaredAlike_iff.mp halike)
  case foreignKeys_enacted =>
    obtain ⟨foreignKeys, hforeignKeys, hnodup, hmatches⟩ :=
      enactAll?_changes (· = ·) ho.foreignKeys hn.foreignKeys
    refine ⟨foreignKeys, hforeignKeys, hmatches.perm hnodup ?_⟩
    rintro f hf g hg hname (rfl | ⟨-, heq⟩)
    · rfl
    · exact of_decide_eq_true heq

/-- The differences seen from the other side. -/
def mirror (a : TableAlteration) : TableAlteration where
  old := a.new
  new := a.old
  columns := mirrorChanges a.columns
  indexes := mirrorChanges a.indexes
  foreignKeys := mirrorChanges a.foreignKeys
  keyChanged := a.keyChanged

theorem between_comm (o n : TableSchema) :
  between n o = (between o n).mirror
  := by
  have hforeignKeys (a b : ForeignKey) : decide (a = b) = decide (b = a) :=
    decide_eq_decide.mpr eq_comm
  have hkey : decide (n.primaryKey ≠ o.primaryKey) = decide (o.primaryKey ≠ n.primaryKey) :=
    decide_eq_decide.mpr ne_comm
  rw [between, changes_comm Column.declaredAlike_comm _ o.columns n.columns,
    changes_comm Index.declaredAlike_comm _ o.secondaryIndexes n.secondaryIndexes,
    changes_comm hforeignKeys _ o.foreignKeys n.foreignKeys, hkey]
  rfl

theorem isEmpty_mirror (a : TableAlteration) :
  a.mirror.isEmpty = a.isEmpty
  := by
  have hmirror {α : Type} (cs : List (Change α)) : (mirrorChanges cs).isEmpty = cs.isEmpty := by
    rw [Bool.eq_iff_iff, List.isEmpty_iff, List.isEmpty_iff, List.eq_nil_iff_forall_not_mem,
      List.eq_nil_iff_forall_not_mem]
    simp only [mem_mirrorChanges]
    constructor
    · intro h c hc
      exact h c.mirror (by rwa [Change.mirror_mirror])
    · intro h c
      exact h c.mirror
  simp only [isEmpty, mirror, hmirror]

end TableAlteration

/-! ### Catalogs -/

namespace TableDifference

/-- A difference seen from the other side. -/
def mirror : TableDifference → TableDifference
  | .added name new => .dropped name new
  | .dropped name old => .added name old
  | .altered a => .altered a.mirror

/-- Whether two catalogs differ at a name in the way that a difference says. -/
def HoldsAt (old new : Catalog.Tables) (name : String) : TableDifference → Prop
  | .added other t => other = name ∧ old.get? name = none ∧ new.get? name = some t
  | .dropped other t => other = name ∧ old.get? name = some t ∧ new.get? name = none
  | .altered a => ∃ o n, old.get? name = some o ∧ new.get? name = some n ∧ ¬ o.Agrees n
    ∧ a = TableAlteration.between o n

end TableDifference

namespace Catalog.Tables

variable {name : String} {d : TableDifference}

/-- A catalog whose tables go by their own names and have no name twice. -/
structure IsProper (c : Catalog.Tables) : Prop where
  keyed : ∀ p ∈ c, p.2.name = p.1
  distinct : ∀ p ∈ c, p.2.HasDistinctNames

instance (c : Catalog.Tables) : Decidable c.IsProper :=
  decidable_of_iff ((∀ p ∈ c, p.2.name = p.1) ∧ ∀ p ∈ c, p.2.HasDistinctNames)
    ⟨fun h => ⟨h.1, h.2⟩, fun h => ⟨h.keyed, h.distinct⟩⟩

/-- The tables of one catalog only and those that do not agree, in the order of names. -/
structure IsExact (old new : Catalog.Tables) (ds : List TableDifference) : Prop where
  sorted : (ds.map TableDifference.table).Pairwise (· < ·)
  added : ∀ name t, .added name t ∈ ds ↔ old.get? name = none ∧ new.get? name = some t
  dropped : ∀ name t, .dropped name t ∈ ds ↔ old.get? name = some t ∧ new.get? name = none
  altered : ∀ a, .altered a ∈ ds ↔ ∃ name o n, old.get? name = some o ∧ new.get? name = some n
    ∧ ¬ o.Agrees n ∧ a = TableAlteration.between o n
  empty : ds = [] ↔ ∀ name, Option.Rel TableSchema.Agrees (old.get? name) (new.get? name)

variable {old new : Catalog.Tables}

theorem mem_compare :
  d ∈ old.compare new ↔ ∃ name, TableDifference.at? old new name = some d
  := by
  rw [compare, List.mem_filterMap]
  constructor
  · rintro ⟨name, -, h⟩
    exact ⟨name, h⟩
  · rintro ⟨name, h⟩
    refine ⟨name, ?_, h⟩
    rw [Text.mem_sortOnce, List.mem_append, ← get?_isSome_iff, ← get?_isSome_iff]
    by_contra hnone
    simp only [not_or, Option.not_isSome_iff_eq_none] at hnone
    rw [TableDifference.at?, hnone.1, hnone.2] at h
    cases h

theorem table_of_holdsAt (hn : new.IsProper) (h : d.HoldsAt old new name) :
  d.table = name
  := by
  cases d with
  | added other t => exact h.1
  | dropped other t => exact h.1
  | altered a =>
    obtain ⟨o, n, -, hnew, -, rfl⟩ := h
    exact hn.keyed _ (mem_of_get? hnew)

section

variable (ho : old.IsProper) (hn : new.IsProper)

include ho hn

theorem isEmpty_between_of_get? {o n : TableSchema} (hold : old.get? name = some o)
    (hnew : new.get? name = some n) :
  (TableAlteration.between o n).isEmpty = true ↔ o.Agrees n
  := TableAlteration.isEmpty_between (ho.distinct _ (mem_of_get? hold))
    (hn.distinct _ (mem_of_get? hnew))

theorem at?_eq_some :
  TableDifference.at? old new name = some d ↔ d.HoldsAt old new name
  := by
  unfold TableDifference.at?
  cases hold : old.get? name with
  | none =>
    cases hnew : new.get? name with
    | none => cases d <;> simp [TableDifference.HoldsAt, hold, hnew]
    | some t => cases d <;> simp [TableDifference.HoldsAt, hold, hnew, eq_comm]
  | some o =>
    cases hnew : new.get? name with
    | none => cases d <;> simp [TableDifference.HoldsAt, hold, hnew, eq_comm]
    | some n =>
      have hempty := isEmpty_between_of_get? ho hn hold hnew
      by_cases hagrees : o.Agrees n
      · cases d <;> simp [TableDifference.HoldsAt, hold, hnew, hempty.mpr hagrees, hagrees]
      · have hne := Bool.eq_false_iff.mpr (mt hempty.mp hagrees)
        cases d <;> simp [TableDifference.HoldsAt, hold, hnew, hne, hagrees, eq_comm]

theorem at?_eq_none :
  TableDifference.at? old new name = none
    ↔ Option.Rel TableSchema.Agrees (old.get? name) (new.get? name)
  := by
  unfold TableDifference.at?
  cases hold : old.get? name with
  | none =>
    cases hnew : new.get? name with
    | none => exact ⟨fun _ => .none, fun _ => rfl⟩
    | some t => exact ⟨nofun, nofun⟩
  | some o =>
    cases hnew : new.get? name with
    | none => exact ⟨nofun, nofun⟩
    | some n =>
      rw [Option.rel_some_some, ← isEmpty_between_of_get? ho hn hold hnew]
      simp

theorem isExact_of_isProper :
  IsExact old new (old.compare new)
  := by
  constructor
  case sorted =>
    rw [List.pairwise_map, compare, List.pairwise_filterMap]
    apply (Text.pairwise_sortOnce _).imp
    intro name name' hlt d hd d' hd'
    rwa [table_of_holdsAt hn ((at?_eq_some ho hn).mp hd),
      table_of_holdsAt hn ((at?_eq_some ho hn).mp hd')]
  case added =>
    intro name t
    simp [mem_compare, at?_eq_some ho hn, TableDifference.HoldsAt]
  case dropped =>
    intro name t
    simp [mem_compare, at?_eq_some ho hn, TableDifference.HoldsAt]
  case altered =>
    intro a
    simp [mem_compare, at?_eq_some ho hn, TableDifference.HoldsAt]
  case empty =>
    rw [List.eq_nil_iff_forall_not_mem]
    simp only [mem_compare, ← at?_eq_none ho hn, Option.eq_none_iff_forall_ne_some]
    exact ⟨fun h name d hd => h d ⟨name, hd⟩, fun h d ⟨name, hd⟩ => h name d hd⟩

end

theorem compare_comm (old new : Catalog.Tables) :
  new.compare old = (old.compare new).map TableDifference.mirror
  := by
  have hnames :
      Text.sortOnce (new.names ++ old.names) = Text.sortOnce (old.names ++ new.names) := by
    apply Text.sortOnce_congr
    intro name
    rw [List.mem_append, List.mem_append, or_comm]
  have hat (name : String) : TableDifference.at? new old name
      = (TableDifference.at? old new name).map TableDifference.mirror := by
    unfold TableDifference.at?
    cases old.get? name with
    | none => cases new.get? name <;> rfl
    | some o =>
      cases new.get? name with
      | none => rfl
      | some n =>
        simp only [TableAlteration.between_comm o n, TableAlteration.isEmpty_mirror]
        split <;> rfl
  rw [compare, compare, hnames, List.map_filterMap]
  apply List.filterMap_congr
  intro name _
  exact hat name

/-- The comparison of two catalogs holds exactly the tables of one catalog only and those that do
not agree, what it says of these is a patch, and the comparison in the other direction is its mirror
image. -/
theorem compare_isExact (ho : old.IsProper) (hn : new.IsProper) :
  IsExact old new (old.compare new)
    ∧ (∀ a, .altered a ∈ old.compare new → a.IsPatch)
    ∧ new.compare old = (old.compare new).map TableDifference.mirror
  := by
  have hexact := isExact_of_isProper ho hn
  refine ⟨hexact, ?_, compare_comm old new⟩
  intro a ha
  obtain ⟨name, o, n, hold, hnew, -, rfl⟩ := (hexact.altered a).mp ha
  exact TableAlteration.isPatch_between (ho.distinct _ (mem_of_get? hold))
    (hn.distinct _ (mem_of_get? hnew))

/-- A table of two columns. -/
def plainUsers : TableSchema where
  name := "users"
  columns := [{ name := "id", sourceType := "int" }, { name := "Email", sourceType := "text" }]

/-- The table after one column was altered and the other one dropped. -/
def leanUsers : TableSchema where
  name := "users"
  columns := [{ name := "ID", sourceType := "BIGINT" }]

theorem compare_isExact_users :
  let old : Catalog.Tables := [("users", plainUsers)]
  let new : Catalog.Tables := [("orders", { name := "orders" }), ("users", leanUsers)]
  old.IsProper ∧ new.IsProper
    ∧ .added "orders" { name := "orders" } ∈ old.compare new
    ∧ .dropped "orders" { name := "orders" } ∈ new.compare old
    ∧ .altered (TableAlteration.between plainUsers leanUsers) ∈ old.compare new
    ∧ (TableAlteration.between plainUsers leanUsers).IsPatch
  := by
  intro old new
  have ho : old.IsProper := by decide
  have hn : new.IsProper := by decide
  obtain ⟨hexact, hpatch, hmirror⟩ := compare_isExact ho hn
  have hadded := (hexact.added "orders" { name := "orders" }).mpr ⟨rfl, rfl⟩
  have hdropped : .dropped "orders" { name := "orders" } ∈ new.compare old := by
    rw [hmirror]
    exact List.mem_map_of_mem hadded
  have hdiffer : ¬ plainUsers.Agrees leanUsers := by
    intro h
    cases h.columns.keys.length_eq
  have haltered := (hexact.altered _).mpr ⟨"users", plainUsers, leanUsers, rfl, rfl, hdiffer, rfl⟩
  exact ⟨ho, hn, hadded, hdropped, haltered, hpatch _ haltered⟩

end Catalog.Tables

end CqlGateway

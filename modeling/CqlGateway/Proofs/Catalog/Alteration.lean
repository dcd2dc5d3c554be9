import CqlGateway.Proofs.Catalog.Schema

/-!
# Altering a table

What alters one version of a table into another: indexes are dropped, columns added and dropped,
and indexes created. Each of these can be carried out where it stands, because an index that is
kept covers a column that is kept, and a new index covers a column that is there by then.
-/

namespace CqlGateway

open Change (added? dropped?)

variable {i : Index}

namespace TableAlteration

variable {o n : TableSchema}

/-! ### What differs between two versions -/

theorem nodup_lower_name {t : TableSchema} (ht : t.IsSound) :
  (t.columns.map fun c => Text.lower c.name).Nodup
  := by
  rw [List.map_congr_left fun c hc => Cql.lower_of_isLowerName (ht.columns_lower c hc)]
  exact ht.columns_nodup

theorem mem_addedColumns (ho : o.IsSound) (hn : n.IsSound) {a : Column} :
  a ∈ (between o n).columns.filterMap added?
    ↔ a ∈ n.columns ∧ ∀ b ∈ o.columns, b.name ≠ a.name
  := by
  rw [between, mem_added_iff (nodup_lower_name hn)]
  refine and_congr_right fun ha => forall₂_congr fun b hb => ?_
  rw [Cql.lower_of_isLowerName (ho.columns_lower b hb),
    Cql.lower_of_isLowerName (hn.columns_lower a ha)]

theorem mem_droppedColumns (ho : o.IsSound) (hn : n.IsSound) {a : Column} :
  a ∈ (between o n).columns.filterMap dropped?
    ↔ a ∈ o.columns ∧ ∀ b ∈ n.columns, b.name ≠ a.name
  := by
  rw [between, mem_dropped_iff (nodup_lower_name ho)]
  refine and_congr_right fun ha => forall₂_congr fun b hb => ?_
  rw [Cql.lower_of_isLowerName (hn.columns_lower b hb),
    Cql.lower_of_isLowerName (ho.columns_lower a ha)]

/-- The columns that changes pick have different names, as far as their names are in small
letters. -/
theorem nodup_columns {f : Change Column → Option Column}
    (hf : ∀ c a, f c = some a → c.old? = some a ∨ c.new? = some a)
    (hlower : ∀ c ∈ (between o n).columns.filterMap f, Cql.isLowerName c.name = true) :
  (((between o n).columns.filterMap f).map Column.name).Nodup
  := by
  have hnodup : (((between o n).columns.filterMap f).map fun c => Text.lower c.name).Nodup :=
    nodup_filterMap_changes hf
  rwa [List.map_congr_left fun c hc => Cql.lower_of_isLowerName (hlower c hc)] at hnodup

theorem nodup_addedColumns (ho : o.IsSound) (hn : n.IsSound) :
  (((between o n).columns.filterMap added?).map Column.name).Nodup
  := by
  apply nodup_columns
  · intro c a ha
    cases c with
    | added => exact .inr ha
    | dropped | modified => cases ha
  · exact fun c hc => hn.columns_lower c ((mem_addedColumns ho hn).mp hc).1

theorem nodup_droppedColumns (ho : o.IsSound) (hn : n.IsSound) :
  (((between o n).columns.filterMap dropped?).map Column.name).Nodup
  := by
  apply nodup_columns
  · intro c a ha
    cases c with
    | dropped => exact .inl ha
    | added | modified => cases ha
  · exact fun c hc => ho.columns_lower c ((mem_droppedColumns ho hn).mp hc).1

theorem mem_droppedIndexes (ho : o.IsSound) (hn : n.IsSound) :
  i ∈ (between o n).indexes.filterMap Change.old?
    ↔ i ∈ o.secondaryIndexes
      ∧ ∀ j ∈ n.secondaryIndexes, j.name = i.name → i.declaredAlike j = false
  := mem_old_iff ho.indexes_nodup hn.indexes_nodup

theorem mem_createdIndexes (ho : o.IsSound) (hn : n.IsSound) :
  i ∈ (between o n).indexes.filterMap Change.new?
    ↔ i ∈ n.secondaryIndexes
      ∧ ∀ j ∈ o.secondaryIndexes, j.name = i.name → j.declaredAlike i = false
  := mem_new_iff ho.indexes_nodup hn.indexes_nodup

theorem nodup_createdIndexes :
  (((between o n).indexes.filterMap Change.new?).map Index.name).Nodup
  := by
  apply nodup_filterMap_changes
  intro c a ha
  exact .inr ha

theorem covered_of_declaredAlike {j : Index} (h : i.declaredAlike j = true) :
  i.covered = j.covered
  := by
  rw [Index.declaredAlike, Bool.and_eq_true, decide_eq_true_eq, decide_eq_true_eq] at h
  rw [Index.covered, Index.covered, h.2]

/-- An index that is not dropped is there in the new version, on the same column. -/
theorem exists_kept (ho : o.IsSound) (hn : n.IsSound) (hi : i ∈ o.secondaryIndexes)
    (hkept : i ∉ (between o n).indexes.filterMap Change.old?) :
  ∃ j ∈ n.secondaryIndexes, j.name = i.name ∧ i.declaredAlike j = true
  := by
  rw [mem_droppedIndexes ho hn] at hkept
  by_contra hnone
  apply hkept
  refine ⟨hi, ?_⟩
  intro j hj hname
  by_contra halike
  exact hnone ⟨j, hj, hname, by simpa using halike⟩

end TableAlteration

namespace Schema

open TableAlteration

variable {s : Schema} {space : String} {view : String → Option TableSchema} {o n : TableSchema}
  {type : Cql.ColumnType}

/-! ### Columns after the alteration -/

theorem hasColumn_name {t : TableSchema} {name : String} :
  t.HasColumn name type ↔ ∃ c ∈ t.columns, c.name = name ∧ c.storedType = type
  := by
  simp [TableSchema.HasColumn, Column.typed]

theorem hasColumn_altered (ho : o.IsSound) (hn : n.IsSound)
    (htypes : ∀ a ∈ o.columns, ∀ b ∈ n.columns, a.name = b.name → a.storedType = b.storedType)
    (name : String) (type : Cql.ColumnType) :
  n.HasColumn name type
    ↔ (o.HasColumn name type
        ∨ (name, type) ∈ ((between o n).columns.filterMap added?).map Column.typed)
      ∧ name ∉ ((between o n).columns.filterMap dropped?).map Column.name
  := by
  simp only [hasColumn_name, List.mem_map, mem_addedColumns ho hn, mem_droppedColumns ho hn]
  constructor
  · rintro ⟨b, hb, rfl, rfl⟩
    refine ⟨?_, ?_⟩
    · by_cases hold : ∃ a ∈ o.columns, a.name = b.name
      · obtain ⟨a, ha, hname⟩ := hold
        exact .inl ⟨a, ha, hname, htypes a ha b hb hname⟩
      · refine .inr ⟨b, ⟨hb, ?_⟩, rfl⟩
        intro a ha hname
        exact hold ⟨a, ha, hname⟩
    · rintro ⟨d, ⟨-, hd⟩, hname⟩
      exact hd b hb hname.symm
  · rintro ⟨⟨a, ha, rfl, rfl⟩ | ⟨b, ⟨hb, -⟩, hpair⟩, hkept⟩
    · by_contra hnone
      apply hkept
      refine ⟨a, ⟨ha, ?_⟩, rfl⟩
      intro b hb hname
      exact hnone ⟨b, hb, hname, (htypes a ha b hb hname.symm).symm⟩
    · cases hpair
      exact ⟨b, hb, rfl, rfl⟩

/-! ### Alterable tables -/

/-- Two versions of a table of which the one in a family can be altered into the other. -/
structure Alterable (view : String → Option TableSchema) (o n : TableSchema) : Prop where
  old_sound : o.IsSound
  new_sound : n.IsSound
  name_eq : o.name = n.name
  view_eq : view n.name = some o
  key_eq : o.primaryKey = n.primaryKey
  types_eq : ∀ a ∈ o.columns, ∀ b ∈ n.columns, a.name = b.name → a.storedType = b.storedType
  old_apart : IndexesApart view o
  new_apart : IndexesApart view n

/-- The schema after the indexes are dropped that are not kept. -/
def withoutIndexes (s : Schema) (space : String) (o n : TableSchema) : Schema :=
  { s with
    indexes := s.indexes.filter fun r =>
      ((between o n).indexes.filterMap Change.old?).all fun i => r.name ≠ ⟨space, i.name⟩ }

theorem mem_withoutIndexes {r : IndexRow} :
  r ∈ (s.withoutIndexes space o n).indexes
    ↔ r ∈ s.indexes ∧ ∀ i ∈ (between o n).indexes.filterMap Change.old?, r.name ≠ ⟨space, i.name⟩
  := by
  rw [withoutIndexes, List.mem_filter, List.all_eq_true]
  simp only [decide_eq_true_eq]

variable (h : s.Describes space view) (ha : Alterable view o n)

include h ha

theorem mem_withoutIndexes_of_ne {r : IndexRow} (hr : r.table ≠ ⟨space, n.name⟩) :
  r ∈ (s.withoutIndexes space o n).indexes ↔ r ∈ s.indexes
  := by
  rw [mem_withoutIndexes]
  refine and_iff_left_of_imp ?_
  intro hmem i hi hname
  obtain ⟨-, hspace, u, hu, j, hj, hjname, -⟩ := (h.indexes r).mp hmem
  have hi := ((mem_droppedIndexes ha.old_sound ha.new_sound).mp hi).1
  apply ha.old_apart r.table.name u hu _ i hi j hj
  · rw [hjname, hname]
  · intro heq
    apply hr
    rw [← ha.name_eq, ← heq, ← hspace]

theorem mem_withoutIndexes_of_eq {name : TableName} {column : String} :
  ⟨name, ⟨space, n.name⟩, column⟩ ∈ (s.withoutIndexes space o n).indexes
    ↔ name.keyspace = space ∧ ∃ i ∈ o.secondaryIndexes,
      i ∉ (between o n).indexes.filterMap Change.old? ∧ i.name = name.name ∧ i.covered = column
  := by
  rw [mem_withoutIndexes, h.indexes]
  constructor
  · rintro ⟨⟨hspace, -, t, ht, i, hi, hname, hcovered⟩, hkept⟩
    rw [ha.view_eq, Option.some.injEq] at ht
    subst ht
    refine ⟨hspace, i, hi, ?_, hname, hcovered⟩
    intro hdropped
    apply hkept i hdropped
    rw [hname, ← hspace]
  · rintro ⟨hspace, i, hi, hkept, hname, hcovered⟩
    refine ⟨⟨hspace, rfl, o, ha.view_eq, i, hi, hname, hcovered⟩, ?_⟩
    intro j hj heq
    have hmem := ((mem_droppedIndexes ha.old_sound ha.new_sound).mp hj).1
    have hij : i = j := by
      apply List.inj_on_of_nodup_map ha.old_sound.indexes_nodup hi hmem
      rw [hname, show name = ⟨space, j.name⟩ from heq]
    rw [hij] at hkept
    exact hkept hj

/-- The columns that are dropped can be: they are not part of the key, and no index that is kept
covers them. -/
theorem isFree_of_dropped {c : Column} (hc : c ∈ (between o n).columns.filterMap dropped?) :
  (s.withoutIndexes space o n).isFree ⟨space, n.name⟩ c.name = true
  := by
  obtain ⟨hmem, hgone⟩ := (mem_droppedColumns ha.old_sound ha.new_sound).mp hc
  have hundeclared : c.name ∉ n.columns.map Column.name := by
    intro hdeclared
    obtain ⟨b, hb, hname⟩ := List.mem_map.mp hdeclared
    exact hgone b hb hname
  have hthere : (s.withoutIndexes space o n).hasColumn ⟨space, n.name⟩ c.name = true := by
    rw [hasColumn_iff]
    exact ⟨c.storedType, (h.columns _).mpr
      ⟨rfl, o, ha.view_eq, hasColumn_name.mpr ⟨c, hmem, rfl, rfl⟩⟩⟩
  rw [isFree, hthere, Bool.true_and, Bool.and_eq_true, Bool.not_eq_true', Bool.not_eq_true',
    List.any_eq_false, List.any_eq_false]
  constructor
  · intro r hr heq
    rw [Bool.and_eq_true, decide_eq_true_eq, List.contains_iff_mem] at heq
    obtain ⟨-, t, ht, hkey⟩ := (h.tables r).mp hr
    rw [heq.1, ha.view_eq, Option.some.injEq] at ht
    subst ht
    rw [hkey, ha.key_eq] at heq
    exact hundeclared (ha.new_sound.key_declared _ heq.2)
  · rintro ⟨name, table, column⟩ hr heq
    simp only [Bool.and_eq_true, decide_eq_true_eq] at heq
    obtain ⟨rfl, rfl⟩ := heq
    obtain ⟨-, i, hi, hkept, -, hcovered⟩ := (mem_withoutIndexes_of_eq h ha).mp hr
    obtain ⟨j, hj, -, halike⟩ := exists_kept ha.old_sound ha.new_sound hi hkept
    apply hundeclared
    rw [← hcovered, covered_of_declaredAlike halike]
    exact ha.new_sound.covered_mem hj

theorem hasColumn_of_added {c : Column} (hc : c ∈ (between o n).columns.filterMap added?) :
  (s.withoutIndexes space o n).hasColumn ⟨space, n.name⟩ c.name = false
  := by
  obtain ⟨-, hnew⟩ := (mem_addedColumns ha.old_sound ha.new_sound).mp hc
  rw [← Bool.not_eq_true, hasColumn_iff]
  rintro ⟨type, hmem⟩
  obtain ⟨-, t, ht, hcolumn⟩ := (h.columns _).mp hmem
  rw [ha.view_eq, Option.some.injEq] at ht
  subst ht
  obtain ⟨b, hb, hname, -⟩ := hasColumn_name.mp hcolumn
  exact hnew b hb hname

omit h ha

/-- The schema after the columns are altered. -/
def withColumns (s : Schema) (space : String) (o n : TableSchema) : Schema :=
  { s with
    columns := (s.columns ++ columnRows ⟨space, n.name⟩
          (((between o n).columns.filterMap added?).map Column.typed)).filter
        fun r => !(r.table = ⟨space, n.name⟩
          && (((between o n).columns.filterMap dropped?).map Column.name).contains r.name) }

theorem mem_withColumns_of_ne {r : ColumnRow} (hr : r.table ≠ ⟨space, n.name⟩) :
  r ∈ (s.withColumns space o n).columns ↔ r ∈ s.columns
  := by
  simp [withColumns, mem_columnRows, hr]

include h ha in
theorem mem_withColumns_of_eq {name : String} :
  ⟨⟨space, n.name⟩, name, type⟩ ∈ (s.withColumns space o n).columns ↔ n.HasColumn name type
  := by
  have hold : ⟨⟨space, n.name⟩, name, type⟩ ∈ s.columns ↔ o.HasColumn name type := by
    rw [h.columns]
    simp [ha.view_eq]
  rw [hasColumn_altered ha.old_sound ha.new_sound ha.types_eq, ← hold, withColumns,
    List.mem_filter, List.mem_append, mem_columnRows]
  generalize ((between o n).columns.filterMap added?).map Column.typed = added
  generalize ((between o n).columns.filterMap dropped?).map Column.name = dropped
  simp

theorem fresh_of_created (h : s.Describes space view) (ha : Alterable view o n)
    (hi : i ∈ (between o n).indexes.filterMap Change.new?) :
  ∀ r ∈ (s.withoutIndexes space o n).indexes, r.name ≠ ⟨space, i.name⟩
  := by
  obtain ⟨hmem, hnew⟩ := (mem_createdIndexes ha.old_sound ha.new_sound).mp hi
  rintro ⟨name, table, column⟩ hr hname
  change name = ⟨space, i.name⟩ at hname
  by_cases htable : table = ⟨space, n.name⟩
  · subst htable
    obtain ⟨-, j, hj, hkept, hjname, -⟩ := (mem_withoutIndexes_of_eq h ha).mp hr
    obtain ⟨k, hk, hkname, halike⟩ := exists_kept ha.old_sound ha.new_sound hj hkept
    have hik : i = k := by
      apply List.inj_on_of_nodup_map ha.new_sound.indexes_nodup hmem hk
      rw [hkname, hjname, hname]
    subst hik
    rw [hnew j hj hkname.symm] at halike
    cases halike
  · rw [mem_withoutIndexes_of_ne h ha htable, h.indexes] at hr
    obtain ⟨-, hspace, u, hu, j, hj, hjname, -⟩ := hr
    apply ha.new_apart table.name u hu _ i hmem j hj
    · rw [hjname, hname]
    · intro heq
      apply htable
      rw [← heq, ← hspace]

theorem hasIndex_altered (ho : o.IsSound) (hn : n.IsSound) (name column : String) :
  n.HasIndex name column
    ↔ (∃ i ∈ o.secondaryIndexes,
        i ∉ (between o n).indexes.filterMap Change.old? ∧ i.name = name ∧ i.covered = column)
      ∨ ∃ i ∈ (between o n).indexes.filterMap Change.new?, i.name = name ∧ i.covered = column
  := by
  constructor
  · rintro ⟨j, hj, rfl, rfl⟩
    by_cases hkept : ∃ i ∈ o.secondaryIndexes, i.name = j.name ∧ i.declaredAlike j = true
    · obtain ⟨i, hi, hname, halike⟩ := hkept
      refine .inl ⟨i, hi, ?_, hname, covered_of_declaredAlike halike⟩
      intro hdropped
      have hdiffers := ((mem_droppedIndexes ho hn).mp hdropped).2 j hj hname.symm
      rw [halike] at hdiffers
      cases hdiffers
    · refine .inr ⟨j, (mem_createdIndexes ho hn).mpr ⟨hj, ?_⟩, rfl, rfl⟩
      intro i hi hname
      by_contra halike
      exact hkept ⟨i, hi, hname, by simpa using halike⟩
  · rintro (⟨i, hi, hkept, rfl, rfl⟩ | ⟨i, hi, rfl, rfl⟩)
    · obtain ⟨j, hj, hname, halike⟩ := exists_kept ho hn hi hkept
      exact ⟨j, hj, hname, (covered_of_declaredAlike halike).symm⟩
    · exact ⟨i, ((mem_createdIndexes ho hn).mp hi).1, rfl, rfl⟩

/-- The schema after a table is altered. -/
def altered (s : Schema) (space : String) (o n : TableSchema) : Schema :=
  { (s.withoutIndexes space o n).withColumns space o n with
    indexes := (s.withoutIndexes space o n).indexes
      ++ ((between o n).indexes.filterMap Change.new?).map (indexRow space n.name) }

theorem replay?_alteration (h : s.Describes space view) (ha : Alterable view o n) :
  s.replay? ((between o n).definitions space) = some (s.altered space o n)
  := by
  have htable : (s.withoutIndexes space o n).hasTable ⟨space, n.name⟩ = true := by
    change s.hasTable ⟨space, n.name⟩ = true
    rw [h.hasTable, ha.view_eq]
    rfl
  have hcolumns : (s.withoutIndexes space o n).replay?
      (columnDefinitions ⟨space, n.name⟩ (between o n).columns)
        = some ((s.withoutIndexes space o n).withColumns space o n) :=
    replay?_columnDefinitions htable (fun c hc => hasColumn_of_added h ha hc)
      (nodup_addedColumns ha.old_sound ha.new_sound) (fun c hc => isFree_of_dropped h ha hc)
      (nodup_droppedColumns ha.old_sound ha.new_sound)
  have hindexes : ((s.withoutIndexes space o n).withColumns space o n).replay?
      (indexDefinitions space n.name (between o n).indexes) = some (s.altered space o n) := by
    refine replay?_createIndexes ?_ nodup_createdIndexes ?_
    · intro i hi
      exact fresh_of_created h ha hi
    intro i hi
    have hmem := ((mem_createdIndexes ha.old_sound ha.new_sound).mp hi).1
    obtain ⟨c, hc, hname⟩ := List.mem_map.mp (ha.new_sound.covered_mem hmem)
    rw [hasColumn_iff]
    exact ⟨c.storedType,
      (mem_withColumns_of_eq h ha).mpr (hasColumn_name.mpr ⟨c, hc, hname, rfl⟩)⟩
  rw [TableAlteration.definitions, replay?_append, replay?_append, indexDropDefinitions,
    replay?_dropIndexes, Option.bind_some]
  change Option.bind ((s.withoutIndexes space o n).replay?
    (columnDefinitions ⟨space, n.name⟩ (between o n).columns)) _ = _
  rw [hcolumns, Option.bind_some]
  exact hindexes

/-- What alters a table brings the description in line. -/
theorem Describes.alter (h : s.Describes space view) (ha : Alterable view o n) :
  (s.altered space o n).Describes space (Function.update view n.name (some n))
  := by
  apply h.update
  constructor
  · intro r _
    exact Iff.rfl
  · intro r hr
    exact mem_withColumns_of_ne hr
  · rintro ⟨name, table, column⟩ hr
    have hrow : ⟨name, table, column⟩
        ∉ ((between o n).indexes.filterMap Change.new?).map (indexRow space n.name) := by
      intro hmem
      obtain ⟨i, -, hi⟩ := List.mem_map.mp hmem
      cases hi
      exact hr rfl
    rw [altered, List.mem_append, or_iff_left hrow]
    exact mem_withoutIndexes_of_ne h ha hr
  · intro key
    change _ ∈ s.tables ↔ _
    rw [h.tables]
    simp [ha.view_eq, ha.key_eq]
  · intro name type
    apply Iff.trans (mem_withColumns_of_eq h ha)
    simp
  · rintro ⟨keyspace, name⟩ column
    have hrow : ⟨⟨keyspace, name⟩, ⟨space, n.name⟩, column⟩
        ∈ ((between o n).indexes.filterMap Change.new?).map (indexRow space n.name)
        ↔ keyspace = space ∧ ∃ i ∈ (between o n).indexes.filterMap Change.new?,
          i.name = name ∧ i.covered = column := by
      rw [List.mem_map]
      constructor
      · rintro ⟨i, hi, hrow⟩
        cases hrow
        exact ⟨rfl, i, hi, rfl, rfl⟩
      · rintro ⟨rfl, i, hi, rfl, rfl⟩
        exact ⟨i, hi, rfl⟩
    rw [altered, List.mem_append, mem_withoutIndexes_of_eq h ha, hrow, ← and_or_left,
      ← hasIndex_altered ha.old_sound ha.new_sound]
    simp

end Schema

end CqlGateway

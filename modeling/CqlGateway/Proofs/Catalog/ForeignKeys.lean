import CqlGateway.Catalog.Introspection
import CqlGateway.Proofs.Catalog.Comparison

/-!
# Changes of foreign keys

A database tells of a foreign key with one row for each column that is constrained, and a table that
is read has exactly these rows, in the order of the answer. When two versions of a table are
compared, a constraint is known by the last of its rows only. A change of foreign keys is reported
if the last rows of some constraint differ, and not if the versions differ only in the other rows of
a constraint on several columns.

Main statement: `Catalog.Tables.reportsForeignKeys_iff`.
-/

namespace CqlGateway

/-! ### Reading a table -/

namespace Catalog.Inspection

variable {α β : Type}

/-- Whether reading comes to a value, whatever was asked before. -/
def Returns (i : Inspection α) (a : α) : Prop :=
  ∃ asked asked', i.run asked = (.ok a, asked')

theorem returns_of_result {i : Inspection α} {a : α} (h : i.result = .ok a) :
  i.Returns a
  := ⟨[], (i.run []).2, Prod.ext h rfl⟩

theorem returns_pure {a b : α} (h : (pure a : Inspection α).Returns b) :
  b = a
  := by
  obtain ⟨asked, asked', h⟩ := h
  cases h
  rfl

theorem not_returns_throw (f : Failure) (a : α) :
  ¬ (throw f : Inspection α).Returns a
  := by
  rintro ⟨asked, asked', h⟩
  cases h

theorem returns_bind {i : Inspection α} {f : α → Inspection β} {b : β} (h : (i >>= f).Returns b) :
  ∃ a, i.Returns a ∧ (f a).Returns b
  := by
  obtain ⟨asked, asked', h⟩ := h
  rw [ExceptT.run_bind] at h
  rcases hi : i.run asked with ⟨_ | a, next⟩
  · simp only [bind, StateT.bind, hi] at h
    cases h
  · simp only [bind, StateT.bind, hi] at h
    exact ⟨a, ⟨asked, next, hi⟩, next, asked', h⟩

end Catalog.Inspection

namespace Catalog

open Inspection

theorem forall₂_of_scanRows {α : Type} {context : String} {scan : List Cell → Option α}
    {rows : List (List Cell)} {as : List α} (h : scanRows context scan rows = .ok as) :
  List.Forall₂ (fun row a => scan row = some a) rows as
  := by
  induction rows generalizing as with
  | nil =>
    cases h
    exact .nil
  | cons row rows ih =>
    rw [scanRows] at h
    split at h
    next => cases h
    next a ha =>
      split at h
      next rest hrest =>
        cases h
        exact .cons ha (ih hrest)
      next => cases h

namespace Source

variable {s : Source} {table : String} {t : TableSchema}

/-- The rows of an answer are read one by one, and the answer is complete. -/
theorem rows_of_returns_read {α : Type} {q : Query} {context rowContext : String}
    {scan : List Cell → Option α} {as : List α}
    (h : (s.read q context rowContext scan).Returns as) :
  ∃ rows, s.answer q = .ok ⟨rows, none⟩ ∧ List.Forall₂ (fun row a => scan row = some a) rows as
  := by
  obtain ⟨-, -, h⟩ := returns_bind h
  split at h
  next => cases not_returns_throw _ _ h
  next answer hanswer =>
    split at h
    next bs hscan =>
      obtain rfl := returns_pure h
      obtain ⟨rows, failure?⟩ := answer
      unfold QueryRows.scan at hscan
      split at hscan
      next => cases hscan
      next => cases hscan
      next hrows hnone =>
        cases hscan
        cases hnone
        exact ⟨rows, hanswer, forall₂_of_scanRows hrows⟩
    next => cases not_returns_throw _ _ h

/-- How the rows about the foreign keys of a table are read. -/
def foreignKeyOf? (s : Source) (table : String) : List Cell → Option ForeignKey :=
  match s.dialect with
  | .sqlite => scanSqliteForeignKey table
  | _ => scanForeignKey

/-- The foreign keys of a table that a database tells of: one for each row of its answer. -/
def Lists (s : Source) (table : String) (keys : List ForeignKey) : Prop :=
  ∃ rows, s.answer (.foreignKeys table) = .ok ⟨rows, none⟩
    ∧ List.Forall₂ (fun row key => s.foreignKeyOf? table row = some key) rows keys

theorem foreignKeys_of_tableByRows {column : List Cell → Option Column}
    (h : (s.tableByRows table column).Returns t) :
  ∃ rows, s.answer (.foreignKeys table) = .ok ⟨rows, none⟩
    ∧ List.Forall₂ (fun row key => scanForeignKey row = some key) rows t.foreignKeys
  := by
  obtain ⟨columns, -, h⟩ := returns_bind h
  dsimp only at h
  split at h
  next =>
    obtain ⟨u, hthrow, -⟩ := returns_bind h
    cases not_returns_throw _ _ hthrow
  next =>
    obtain ⟨indexes, -, h⟩ := returns_bind h
    obtain ⟨keys, hkeys, h⟩ := returns_bind h
    obtain rfl := returns_pure h
    exact rows_of_returns_read hkeys

theorem foreignKeys_of_tableByLists (h : (s.tableByLists table).Returns t) :
  ∃ rows, s.answer (.foreignKeys table) = .ok ⟨rows, none⟩
    ∧ List.Forall₂ (fun row key => scanSqliteForeignKey table row = some key) rows t.foreignKeys
  := by
  obtain ⟨columns, -, h⟩ := returns_bind h
  dsimp only at h
  split at h
  next =>
    obtain ⟨u, hthrow, -⟩ := returns_bind h
    cases not_returns_throw _ _ hthrow
  next =>
    obtain ⟨indexes, -, h⟩ := returns_bind h
    obtain ⟨keys, hkeys, h⟩ := returns_bind h
    have hrows := rows_of_returns_read hkeys
    -- Marking the key and the column that counts up leaves the foreign keys alone.
    split at h
    next =>
      obtain ⟨ddl, -, h⟩ := returns_bind h
      split at h
      · obtain rfl := returns_pure h
        exact hrows
      · obtain rfl := returns_pure h
        exact hrows
    next =>
      obtain rfl := returns_pure h
      exact hrows

/-- A table that is read has the foreign keys that the database tells of. -/
theorem lists_of_result (h : (s.table table).result = .ok t) :
  s.Lists table t.foreignKeys
  := by
  have hreturns := returns_of_result h
  unfold Source.table at hreturns
  unfold Lists foreignKeyOf?
  cases hdialect : s.dialect with
  | mysql =>
    rw [hdialect] at hreturns
    exact foreignKeys_of_tableByRows hreturns
  | postgres =>
    rw [hdialect] at hreturns
    exact foreignKeys_of_tableByRows hreturns
  | sqlite =>
    rw [hdialect] at hreturns
    exact foreignKeys_of_tableByLists hreturns

end Source

end Catalog

/-! ### Comparing by last rows -/

section LastRows

variable {α : Type} {key : α → String} {old new : List α}

/-- Items that are matched by key and compared as they are have no changes exactly if the last items
of every key are the same. -/
theorem changes_eq_nil_iff_lastOf? [DecidableEq α] :
  changes key (· = ·) old new = [] ↔ ∀ k, lastOf? key k old = lastOf? key k new
  := by
  rw [List.eq_nil_iff_forall_not_mem]
  simp only [mem_changes]
  constructor
  · intro h k
    cases hold : lastOf? key k old with
    | none =>
      cases hnew : lastOf? key k new with
      | none => rfl
      | some n => exact absurd ⟨hold, hnew⟩ (h (.added k n))
    | some o =>
      cases hnew : lastOf? key k new with
      | none => exact absurd ⟨hold, hnew⟩ (h (.dropped k o))
      | some n =>
        by_contra hne
        refine h (.modified k o n) ⟨hold, hnew, decide_eq_false ?_⟩
        rintro rfl
        exact hne rfl
  · rintro h (⟨k, o⟩ | ⟨k, n⟩ | ⟨k, o, n⟩)
    · rintro ⟨hold, hnew⟩
      rw [h k, hnew] at hold
      cases hold
    · rintro ⟨hold, hnew⟩
      rw [h k, hnew] at hold
      cases hold
    · rintro ⟨hold, hnew, hne⟩
      rw [h k, hnew] at hold
      cases hold
      exact of_decide_eq_false hne rfl

/-- Whether a key has one item only, which may be repeated. -/
def HasSingleItems (key : α → String) (items : List α) : Prop :=
  ∀ a ∈ items, ∀ b ∈ items, key a = key b → a = b

theorem HasSingleItems.lastOf?_eq_some (h : HasSingleItems key old) {k : String} {a : α} :
  lastOf? key k old = some a ↔ a ∈ old ∧ key a = k
  := by
  constructor
  · apply mem_of_lastOf?
  · rintro ⟨ha, hk⟩
    obtain ⟨b, hb⟩ := exists_lastOf? ha hk
    obtain ⟨hmem, hkey⟩ := mem_of_lastOf? hb
    rw [hb, h b hmem a ha (hkey.trans hk.symm)]

/-- Where each key has one item only, the last items say which items there are. -/
theorem HasSingleItems.forall_lastOf?_eq_iff (hold : HasSingleItems key old)
    (hnew : HasSingleItems key new) :
  (∀ k, lastOf? key k old = lastOf? key k new) ↔ ∀ a, a ∈ old ↔ a ∈ new
  := by
  constructor
  · intro h a
    have ha := congrArg (· = some a) (h (key a))
    simpa [hold.lastOf?_eq_some, hnew.lastOf?_eq_some] using ha
  · intro h k
    apply Option.ext
    intro a
    rw [hold.lastOf?_eq_some, hnew.lastOf?_eq_some, h a]

end LastRows

/-! ### Versions of a table -/

namespace Catalog.Tables

variable {old new : Catalog.Tables} {name : String} {o n : TableSchema}

/-- Whether the comparison of two catalogs tells of a change of foreign keys between two versions of
a table. -/
def ReportsForeignKeys (old new : Catalog.Tables) (o n : TableSchema) : Prop :=
  ∃ a, .altered a ∈ old.compare new ∧ a.old = o ∧ a.new = n ∧ a.foreignKeys ≠ []

/-- The comparison tells of all changes of foreign keys that are found between two versions. -/
theorem reportsForeignKeys_iff_changes (hold : old.get? name = some o)
    (hnew : new.get? name = some n) :
  ReportsForeignKeys old new o n ↔ (TableAlteration.between o n).foreignKeys ≠ []
  := by
  constructor
  · rintro ⟨a, ha, rfl, rfl, hne⟩
    obtain ⟨other, hat⟩ := mem_compare.mp ha
    unfold TableDifference.at? at hat
    split at hat <;> try cases hat
    dsimp only at hat
    split at hat <;> cases hat
    exact hne
  · intro hne
    refine ⟨TableAlteration.between o n, mem_compare.mpr ⟨name, ?_⟩, rfl, rfl, hne⟩
    have hempty : (TableAlteration.between o n).isEmpty = false := by
      rw [← Bool.not_eq_true, TableAlteration.isEmpty, Bool.and_eq_true, List.isEmpty_iff]
      exact fun h => hne h.2
    rw [TableDifference.at?, hold, hnew]
    simp [hempty]

/-- The foreign keys of a table that is read are the rows that the database lists, one for each
column that is constrained. A change of the foreign keys of two versions that were read is reported
exactly if the last rows of some constraint differ; where each constraint has one row only, exactly
if the rows differ. -/
theorem reportsForeignKeys_iff {s s' : Source} {table table' : String}
    (ho : (s.table table).result = .ok o) (hn : (s'.table table').result = .ok n)
    (hold : old.get? name = some o) (hnew : new.get? name = some n) :
  s.Lists table o.foreignKeys ∧ s'.Lists table' n.foreignKeys
    ∧ (ReportsForeignKeys old new o n ↔ ∃ constraint,
        lastOf? ForeignKey.name constraint o.foreignKeys
          ≠ lastOf? ForeignKey.name constraint n.foreignKeys)
    ∧ (HasSingleItems ForeignKey.name o.foreignKeys → HasSingleItems ForeignKey.name n.foreignKeys →
        (ReportsForeignKeys old new o n ↔ ∃ row, ¬ (row ∈ o.foreignKeys ↔ row ∈ n.foreignKeys)))
  := by
  have hlast : ReportsForeignKeys old new o n ↔ ∃ constraint,
      lastOf? ForeignKey.name constraint o.foreignKeys
        ≠ lastOf? ForeignKey.name constraint n.foreignKeys := by
    rw [reportsForeignKeys_iff_changes hold hnew, TableAlteration.between, ← not_forall, Ne,
      changes_eq_nil_iff_lastOf?]
  refine ⟨Source.lists_of_result ho, Source.lists_of_result hn, hlast, ?_⟩
  intro hosingle hnsingle
  rw [hlast, ← not_forall, hosingle.forall_lastOf?_eq_iff hnsingle, not_forall]

/-- A database with a table of order lines and the given rows about its foreign keys. -/
def orderLines (rows : List (List Cell)) : Source where
  dialect := .mysql
  database := "shop"
  answer
    | .columns _ => .ok
        { rows := [[.text "id", .text "int", .text "NO", .null, .text "", .text "1"]] }
    | .foreignKeys _ => .ok { rows := rows }
    | _ => .ok {}

/-- The row for a column of the constraint that an order line belongs to an order. -/
def orderRow (column referenced : String) : List Cell :=
  [.text "fk_order", .text column, .text "orders", .text referenced]

/-- The table that is read where an order line belongs to an order by one column. -/
def linesBy (column referenced : String) : TableSchema where
  name := "lines"
  columns := [{ name := "id", sourceType := "int", position := 1 }]
  foreignKeys := [⟨"fk_order", column, "orders", referenced⟩]

/-- The table that is read where an order line belongs to an order by the column of its shop and by
the number of the order. -/
def linesByShop (column : String) : TableSchema where
  name := "lines"
  columns := [{ name := "id", sourceType := "int", position := 1 }]
  foreignKeys :=
    [⟨"fk_order", column, "orders", "shop"⟩, ⟨"fk_order", "number", "orders", "number"⟩]

theorem reportsForeignKeys_orderNumber :
  let o := linesBy "order" "id"
  let n := linesBy "number" "number"
  ((orderLines [orderRow "order" "id"]).table "lines").result = .ok o
    ∧ ((orderLines [orderRow "number" "number"]).table "lines").result = .ok n
    ∧ ReportsForeignKeys [("lines", o)] [("lines", n)] o n
  := by
  intro o n
  have ho : ((orderLines [orderRow "order" "id"]).table "lines").result = .ok o := rfl
  have hn : ((orderLines [orderRow "number" "number"]).table "lines").result = .ok n := rfl
  have hold : Catalog.Tables.get? [("lines", o)] "lines" = some o := rfl
  have hnew : Catalog.Tables.get? [("lines", n)] "lines" = some n := rfl
  obtain ⟨-, -, -, hsingle⟩ := reportsForeignKeys_iff ho hn hold hnew
  refine ⟨ho, hn, (hsingle ?_ ?_).mpr ⟨⟨"fk_order", "order", "orders", "id"⟩, by decide⟩⟩
  · simp [HasSingleItems, o, linesBy]
  · simp [HasSingleItems, n, linesBy]

/-- A change of the first column of a constraint on two columns goes unnoticed. -/
theorem compare_linesByShop :
  ((orderLines [orderRow "shop" "shop", orderRow "number" "number"]).table "lines").result
      = .ok (linesByShop "shop")
    ∧ ((orderLines [orderRow "branch" "shop", orderRow "number" "number"]).table "lines").result
      = .ok (linesByShop "branch")
    ∧ ⟨"fk_order", "shop", "orders", "shop"⟩ ∈ (linesByShop "shop").foreignKeys
    ∧ ⟨"fk_order", "shop", "orders", "shop"⟩ ∉ (linesByShop "branch").foreignKeys
    ∧ Catalog.Tables.compare [("lines", linesByShop "shop")] [("lines", linesByShop "branch")] = []
  := ⟨rfl, rfl, by decide, by decide, by decide⟩

end Catalog.Tables

end CqlGateway

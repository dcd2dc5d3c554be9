import CqlGateway.Cql.Engine
import CqlGateway.Proofs.Cql.Spelling

/-!
# Statements that begin with their verb

A clause is a phrase that begins with a verb. A statement of any kind is rendered as one clause,
whose verb is that of its operation, or, for several rows, tables or alterations, as several
clauses with terminators between them. The texts that the clauses copy are those of the expressions
that show in the rendering and, for a keyspace, the replication that the gateway is set up with.
-/

namespace CqlGateway

open Cql (Phrase)
open Draft (forall_of_each ne_nil_of_each yields_bind yields_pure yields_reject yields_warnIf)
open Cql (isLead phrase_tableName quoteIdentifiers)

variable {text : String} {table : TableName} {filter : Expr}

/-- The verb that statements of an operation begin with. -/
def Operation.verb : Operation → String
  | .select => "SELECT"
  | .insert => "INSERT"
  | .update => "UPDATE"
  | .delete => "DELETE"
  | .create => "CREATE"
  | .alter => "ALTER"
  | .drop => "DROP"
  | .truncate => "TRUNCATE"
  | .use => "USE"
  | .describe => "DESCRIBE"

/-- A phrase that begins with a verb. -/
structure Clause (raw : String → Prop) (verb text : String) : Prop where
  phrase : Phrase raw text
  opens : ∃ rest, text = verb ++ rest

theorem opens_append {verb left : String} (h : verb.toList.isPrefixOf left.toList = true)
    (right : String) :
  ∃ rest, left ++ right = verb ++ rest
  := by
  obtain ⟨cs, hcs⟩ := List.isPrefixOf_iff_prefix.mp h
  use String.ofList cs ++ right
  apply String.toList_inj.mp
  simp [← hcs]

/-- The expressions that show in the rendering of a statement. -/
def Statement.renderedExprs : Statement → List Expr
  | .createView s =>
    match s.definition with
    | none => []
    | some query => query.filter :: query.columns.map (·.expr)
  | .select s => s.filter :: s.columns.map (·.expr) ++ s.orderBy.map (·.expr)
  | .insert s =>
    match Insert.rows s.values with
    | .ok rows => rows.flatten
    | .error _ => []
  | .update s => s.filter :: (s.assignments.getD []).map (·.value)
  | .delete s => [s.filter]
  | _ => []

/-- The texts that the rendering of a statement copies as they are. -/
def Statement.copiedTexts (options : RenderingOptions) (s : Statement) : List String :=
  match s with
  | .createKeyspace _ | .alterKeyspace _ => [options.replication.cql]
  | s => s.renderedExprs.flatMap (·.copiedTexts)

variable {raw : String → Prop}

/-! ### Parts of statements -/

theorem isLead_optionalText (h : isLead text = true) (condition : Bool) :
  isLead (optionalText condition text) = true
  := by
  cases condition with
  | true => apply h
  | false => rfl

theorem isLead_append {s t : String} (hs : isLead s = true) (ht : isLead t = true) :
  isLead (s ++ t) = true
  := by
  rw [isLead, String.toList_append]
  apply Execution.leadsOut_append hs ht

theorem isLead_quoteIdentifier (name : String) :
  isLead (Cql.quoteIdentifier name) = true
  := Cql.leadsOut_quoteBare _

theorem isLead_quoteIdentifiers (names : List String) :
  isLead (quoteIdentifiers names) = true
  := by
  unfold quoteIdentifiers
  induction names with
  | nil => rfl
  | cons name names ih =>
    cases names with
    | nil => simpa using isLead_quoteIdentifier name
    | cons other names =>
      rw [List.map_cons, List.map_cons, String.intercalate_cons_cons]
      apply isLead_append (isLead_append (isLead_quoteIdentifier name) (by decide)) ih

theorem phrase_quoteIdentifiers {names : List String} (hne : names ≠ []) :
  Phrase raw (quoteIdentifiers names)
  := by
  apply Phrase.intercalate (by decide)
  · simpa using hne
  · intro s hs
    obtain ⟨name, -, rfl⟩ := List.mem_map.mp hs
    apply Phrase.name

/-- A phrase behind a fixed text that begins with a verb is a clause; a second text may stand
between them. -/
theorem clause_before
    {verb start option s : String} (hverb : verb.toList.isPrefixOf start.toList = true)
    (hstart : isLead start = true) (hoption : isLead option = true) (hs : Phrase raw s)
    (condition : Bool) :
  Clause raw verb (start ++ optionalText condition option ++ s)
  := by
  constructor
  · apply Phrase.before (isLead_append hstart (isLead_optionalText hoption _)) hs
  · rw [String.append_assoc]
    apply opens_append hverb

/-- A text that is empty or begins with a separator, as it stands behind a phrase. -/
def Trailing (raw : String → Prop) (text : String) : Prop :=
  text = "" ∨ ∃ sep t, text = sep ++ t ∧ Cql.isSeparator sep = true ∧ Phrase raw t

theorem Cql.Phrase.trailing {s t : String} (hs : Phrase raw s) (ht : Trailing raw t) :
  Phrase raw (s ++ t)
  := by
  rcases ht with rfl | ⟨sep, u, rfl, hsep, hu⟩
  · rwa [String.append_empty]
  · rw [← String.append_assoc]
    apply hs.join hsep hu

/-! ### Queries -/

theorem phrase_selectColumn {c : SelectColumn} (hraw : ∀ s ∈ c.expr.copiedTexts, raw s)
    (h : c.cql.Yields text) :
  Phrase raw text
  := by
  simp only [SelectColumn.cql, yields_bind, yields_pure] at h
  obtain ⟨expr, hexpr, rfl⟩ := h
  have hphrase := Expr.phrase_cql _ hraw hexpr
  split
  · apply hphrase
  · apply hphrase.join (by decide) (.name _)

theorem phrase_columnsCql {columns : List SelectColumn}
    (hraw : ∀ c ∈ columns, ∀ s ∈ c.expr.copiedTexts, raw s) (h : (columnsCql columns).Yields text) :
  Phrase raw text
  := by
  unfold columnsCql at h
  split at h
  next =>
    obtain rfl := (yields_pure _ _).mp h
    apply Phrase.word (by decide)
  next hne =>
    simp only [yields_bind, yields_pure] at h
    obtain ⟨texts, htexts, rfl⟩ := h
    apply Phrase.intercalate (by decide)
    · apply ne_nil_of_each htexts (by simpa using hne)
    · refine forall_of_each ?_ htexts
      intro c hc text hyields
      apply phrase_selectColumn (hraw c hc) hyields

theorem phrase_orderItem {o : OrderItem} (hraw : ∀ s ∈ o.expr.copiedTexts, raw s)
    (h : o.cql.Yields text) :
  Phrase raw text
  := by
  simp only [OrderItem.cql, yields_bind, yields_pure] at h
  obtain ⟨expr, hexpr, rfl⟩ := h
  have hphrase := Expr.phrase_cql _ hraw hexpr
  split
  · apply hphrase.behind (by decide)
  · apply hphrase.behind (by decide)

theorem trailing_filterCql (hraw : ∀ s ∈ filter.copiedTexts, raw s)
    (h : (Select.filterCql filter).Yields text) :
  Trailing raw text
  := by
  unfold Select.filterCql at h
  split at h
  next =>
    simp only [yields_bind, yields_pure] at h
    obtain ⟨expr, hexpr, rfl⟩ := h
    exact .inr ⟨" WHERE ", expr, rfl, by decide, Expr.phrase_cql _ hraw hexpr⟩
  next =>
    exact .inl ((yields_pure _ _).mp h)

theorem trailing_orderCql {orderBy : List OrderItem}
    (hraw : ∀ o ∈ orderBy, ∀ s ∈ o.expr.copiedTexts, raw s)
    (h : (Select.orderCql orderBy).Yields text) :
  Trailing raw text
  := by
  unfold Select.orderCql at h
  split at h
  next =>
    exact .inl ((yields_pure _ _).mp h)
  next hne =>
    simp only [yields_bind, yields_pure, Draft.yields_warn, true_and] at h
    obtain ⟨texts, htexts, -, rfl⟩ := h
    refine .inr ⟨" ORDER BY ", _, rfl, by decide, ?_⟩
    apply Phrase.intercalate (by decide)
    · apply ne_nil_of_each htexts (by simpa using hne)
    · refine forall_of_each ?_ htexts
      intro o ho text hyields
      apply phrase_orderItem (hraw o ho) hyields

theorem Limit.positive?_pos {n : Node} {count : Int} (h : Limit.positive? n = some count) :
  0 < count
  := by
  rw [Limit.positive?, Option.filter_eq_some_iff] at h
  simpa using h.2

theorem Limit.count_pos {n : Node} {count : Int} (h : (Limit.ofNode n).count? = some count) :
  0 < count
  := by
  unfold Limit.ofNode at h
  split at h
  next => cases h
  next => apply Limit.positive?_pos h
  next =>
    split at h
    · apply Limit.positive?_pos h
    · apply Limit.positive?_pos h
  next =>
    split at h
    · apply Limit.positive?_pos h
    · apply Limit.positive?_pos h

theorem Select.limit_pos {default limit : Int} {s : Select} (hdefault : 0 < default)
    (h : (s.limitOf default).Yields limit) :
  0 < limit
  := by
  unfold Select.limitOf at h
  cases hcount : (Limit.ofNode s.limit).count? with
  | some count =>
    simp only [hcount, yields_bind, yields_pure, yields_warnIf, true_and] at h
    obtain ⟨count, rfl, -, rfl⟩ := h
    apply Limit.count_pos hcount
  | none =>
    simp only [hcount, yields_bind, yields_pure, yields_warnIf, true_and] at h
    obtain ⟨-, count, rfl, -, rfl⟩ := h
    apply hdefault

theorem Select.clause {default : Int} (hdefault : 0 < default) {s : Select}
    (hraw : ∀ e ∈ (Statement.select s).renderedExprs, ∀ t ∈ e.copiedTexts, raw t)
    (h : (s.cql default).Yields text) :
  Clause raw "SELECT" text
  := by
  simp only [Statement.renderedExprs, List.mem_append, List.mem_cons, List.mem_map] at hraw
  simp only [Select.cql, yields_bind, yields_pure, yields_warnIf, true_and] at h
  obtain ⟨table, -, columns, hcolumns, -, filter, hfilter, -, -, -, order, horder, limit, hlimit,
    rfl⟩ := h
  have hcolumns : Phrase raw columns :=
    phrase_columnsCql (fun c hc => hraw c.expr (.inl (.inr ⟨c, hc, rfl⟩))) hcolumns
  have hfilter : Trailing raw filter := trailing_filterCql (hraw s.filter (.inl (.inl rfl))) hfilter
  have horder : Trailing raw order :=
    trailing_orderCql (fun o ho => hraw o.expr (.inr ⟨o, ho, rfl⟩)) horder
  have hlead : isLead ("SELECT " ++ optionalText s.distinct "DISTINCT ") = true :=
    isLead_append (by decide) (isLead_optionalText (by decide) _)
  constructor
  · apply Phrase.join _ (by decide)
    · apply Phrase.word (Cql.isWord_toString_of_nonneg (Int.le_of_lt (Select.limit_pos hdefault hlimit)))
    · apply Phrase.trailing (.trailing _ hfilter) horder
      apply Phrase.join (.before hlead hcolumns) (by decide) (phrase_tableName table)
  · simp only [String.append_assoc]
    apply opens_append (by decide)

/-! ### Changes of rows -/

theorem Insert.clause_row {s : Insert} {number : Nat} {row : List Expr} (hcolumns : s.columns ≠ [])
    (hraw : ∀ e ∈ row, ∀ t ∈ e.copiedTexts, raw t) (h : (s.rowCql number row).Yields text) :
  Clause raw "INSERT" text
  := by
  simp only [Insert.rowCql, yields_bind, yields_pure] at h
  obtain ⟨-, -, values, hvalues, rfl⟩ := h
  have hvalues : ∀ v ∈ values, Phrase raw v := by
    refine forall_of_each ?_ hvalues
    intro e he text hyields
    apply Expr.phrase_valueCql e (hraw e he) hyields
  constructor
  · apply Phrase.join _ (by decide)
    · apply Phrase.enclosed (by decide) (by decide) (by decide) hvalues
    · apply Phrase.join _ (by decide) (phrase_quoteIdentifiers hcolumns)
      apply Phrase.before (by decide) (phrase_tableName _)
  · simp only [String.append_assoc]
    apply opens_append (by decide)

theorem phrase_assignment {a : Assignment} (hraw : ∀ t ∈ a.value.copiedTexts, raw t)
    (h : (a.cql table).Yields text) :
  Phrase raw text
  := by
  simp only [Assignment.cql, yields_bind, yields_pure] at h
  obtain ⟨-, -, value, hvalue, rfl⟩ := h
  apply Phrase.join (.name _) (by decide) (Expr.phrase_valueCql _ hraw hvalue)

theorem phrase_mutationFilter {statement : String} (hraw : ∀ t ∈ filter.copiedTexts, raw t)
    (h : (mutationFilterCql statement table filter).Yields text) :
  Phrase raw text
  := by
  cases filter with
  | missing => cases yields_reject _ _ h
  | of t => apply Expr.phrase_cql _ hraw h

theorem Update.clause {s : Update}
    (hraw : ∀ e ∈ (Statement.update s).renderedExprs, ∀ t ∈ e.copiedTexts, raw t)
    (h : s.cql.Yields text) :
  Clause raw "UPDATE" text
  := by
  simp only [Statement.renderedExprs, List.mem_cons, List.mem_map] at hraw
  simp only [Update.cql, yields_bind, yields_pure, Draft.yields_rejectIf] at h
  obtain ⟨-, -, -, -, -, hne, filter, hfilter, parts, hparts, -, -, rfl⟩ := h
  have hfilter : Phrase raw filter := phrase_mutationFilter (hraw s.filter (.inl rfl)) hfilter
  have hphrases : ∀ p ∈ parts, Phrase raw p := by
    refine forall_of_each ?_ hparts
    intro a ha text hyields
    apply phrase_assignment (hraw a.value (.inr ⟨a, ha, rfl⟩)) hyields
  constructor
  · apply Phrase.join _ (by decide) hfilter
    apply Phrase.join (.before (by decide) (phrase_tableName _)) (by decide)
    apply Phrase.intercalate (by decide) (ne_nil_of_each hparts (by simpa using hne)) hphrases
  · simp only [String.append_assoc]
    apply opens_append (by decide)

theorem Delete.clause {s : Delete}
    (hraw : ∀ e ∈ (Statement.delete s).renderedExprs, ∀ t ∈ e.copiedTexts, raw t)
    (h : s.cql.Yields text) :
  Clause raw "DELETE" text
  := by
  simp only [Statement.renderedExprs, List.mem_singleton] at hraw
  simp only [Delete.cql, yields_bind, yields_pure] at h
  obtain ⟨-, -, -, -, filter, hfilter, -, -, rfl⟩ := h
  have hfilter : Phrase raw filter := phrase_mutationFilter (hraw s.filter rfl) hfilter
  have hcolumns : isLead (quoteIdentifiers s.columns ++ " ") = true :=
    isLead_append (isLead_quoteIdentifiers _) (by decide)
  have hlead : isLead ("DELETE " ++ optionalText (!s.columns.isEmpty)
      (quoteIdentifiers s.columns ++ " ") ++ "FROM ") = true :=
    isLead_append (isLead_append (by decide) (isLead_optionalText hcolumns _)) (by decide)
  constructor
  · apply Phrase.join (.before hlead (phrase_tableName _)) (by decide) hfilter
  · simp only [String.append_assoc]
    apply opens_append (by decide)

/-! ### Keyspaces -/

theorem CreateKeyspace.clause {replication : Replication} {s : CreateKeyspace}
    (hraw : raw replication.cql) (h : (s.cql replication).Yields text) :
  Clause raw "CREATE" text
  := by
  simp only [CreateKeyspace.cql, yields_bind, yields_pure] at h
  obtain ⟨-, -, -, -, rfl⟩ := h
  have hlead : isLead ("CREATE KEYSPACE " ++ optionalText s.ifNotExists "IF NOT EXISTS ")
      = true :=
    isLead_append (by decide) (isLead_optionalText (by decide) _)
  constructor
  · apply Phrase.join (.before hlead (.name _)) (by decide) (.copied hraw)
  · simp only [String.append_assoc]
    apply opens_append (by decide)

theorem AlterKeyspace.clause {replication : Replication} {s : AlterKeyspace}
    (hraw : raw replication.cql) (h : (s.cql replication).Yields text) :
  Clause raw "ALTER" text
  := by
  simp only [AlterKeyspace.cql, yields_bind, yields_pure] at h
  obtain ⟨-, -, -, -, rfl⟩ := h
  constructor
  · apply Phrase.join (.before (by decide) (.name _)) (by decide) (.copied hraw)
  · simp only [String.append_assoc]
    apply opens_append (by decide)

theorem DropKeyspace.clause {s : DropKeyspace} (h : s.cql.Yields text) :
  Clause raw "DROP" text
  := by
  simp only [DropKeyspace.cql, yields_bind, yields_pure] at h
  obtain ⟨-, -, rfl⟩ := h
  apply clause_before (by decide) (by decide) (by decide) (.name _)

theorem Use.clause {s : Use} (h : s.cql.Yields text) :
  Clause raw "USE" text
  := by
  simp only [Use.cql, yields_bind, yields_pure] at h
  obtain ⟨-, -, rfl⟩ := h
  exact ⟨.before (by decide) (.name _), opens_append (by decide) _⟩

theorem Describe.clause (d : Describe) :
  Clause raw "DESCRIBE" d.cql
  := by
  unfold Describe.cql
  split
  · exact ⟨.word (by decide), " KEYSPACES", by decide⟩
  · split
    · exact ⟨.word (by decide), " TABLES", by decide⟩
    · exact ⟨.before (by decide) (phrase_tableName _), opens_append (by decide) _⟩

/-! ### Tables -/

theorem phrase_columnType (type : Cql.ColumnType) :
  Phrase raw type.cql
  := by
  induction type with
  | scalar type =>
    apply Phrase.word
    cases type <;> decide
  | list element ih => apply Phrase.behind (.before (by decide) ih) (by decide)

theorem phrase_column {c : Column} (h : c.cql.Yields text) :
  Phrase raw text
  := by
  simp only [Column.cql, yields_bind, yields_pure] at h
  obtain ⟨-, -, -, -, -, -, rfl⟩ := h
  apply Phrase.join (.name _) (by decide) (phrase_columnType _)

theorem CreateTable.key_ne_nil {s : CreateTable} {columns : List Column} {key : List String}
    (h : (s.key columns).Yields key) :
  key ≠ []
  := by
  unfold CreateTable.key at h
  split at h
  next hne => apply ne_nil_of_each h (by simpa using hne)
  next =>
    split at h
    next =>
      split at h
      next =>
        simp only [yields_bind, yields_pure] at h
        obtain ⟨-, -, rfl⟩ := h
        apply List.cons_ne_nil
      next => cases yields_reject _ _ h
    next hmarked =>
      obtain rfl := (yields_pure _ _).mp h
      apply hmarked

theorem CreateTable.clause {s : CreateTable} (h : s.cql.Yields text) :
  Clause raw "CREATE" text
  := by
  simp only [CreateTable.cql, yields_bind, yields_pure] at h
  obtain ⟨-, -, -, -, key, hkey, parts, hparts, rfl⟩ := h
  have hlead : isLead ("CREATE TABLE " ++ optionalText s.ifNotExists "IF NOT EXISTS ") = true :=
    isLead_append (by decide) (isLead_optionalText (by decide) _)
  have hphrases : ∀ p ∈ parts, Phrase raw p := by
    refine forall_of_each ?_ hparts
    intro c _ text hyields
    apply phrase_column hyields
  have hkey : Phrase raw ("PRIMARY KEY (" ++ quoteIdentifiers key ++ ")") := by
    apply Phrase.behind (.before (by decide) _) (by decide)
    apply phrase_quoteIdentifiers (CreateTable.key_ne_nil hkey)
  constructor
  · apply Phrase.behind _ (by decide)
    apply Phrase.join (.before hlead (phrase_tableName _)) (by decide)
    apply Phrase.intercalate (by decide) (by simp)
    rw [List.forall_mem_append, List.forall_mem_singleton]
    exact ⟨hphrases, hkey⟩
  · simp only [String.append_assoc]
    apply opens_append (by decide)

theorem clause_dropTable {ifExists : Bool} (h : (dropTableCql ifExists table).Yields text) :
  Clause raw "DROP" text
  := by
  simp only [dropTableCql, yields_bind, yields_pure] at h
  obtain ⟨-, -, rfl⟩ := h
  apply clause_before (by decide) (by decide) (by decide) (phrase_tableName _)

namespace Alterations

variable {a : Alterations}

/-- The parts of alterations are phrases. -/
structure Phrased (raw : String → Prop) (a : Alterations) : Prop where
  adds : ∀ p ∈ a.adds, Phrase raw p
  drops : ∀ p ∈ a.drops, Phrase raw p
  renames : ∀ p ∈ a.renames, Phrase raw p

/-- How many parts alterations come to. -/
def count (a : Alterations) : Nat :=
  a.adds.length + a.drops.length + a.renames.length

theorem phrased_add {b : Alterations} {spec : AlterSpec} (ha : a.Phrased raw)
    (h : (a.add table spec).Yields b) :
  b.Phrased raw ∧ b.count = a.count + 1
  := by
  unfold add at h
  split at h
  next =>
    simp only [yields_bind, yields_pure] at h
    obtain ⟨-, -, part, hpart, rfl⟩ := h
    refine ⟨⟨?_, ha.drops, ha.renames⟩, by simp only [count, List.length_append]; simp; omega⟩
    rw [List.forall_mem_append, List.forall_mem_singleton]
    exact ⟨ha.adds, phrase_column hpart⟩
  next =>
    simp only [yields_bind, yields_pure] at h
    obtain ⟨-, -, rfl⟩ := h
    refine ⟨⟨ha.adds, ?_, ha.renames⟩, by simp only [count, List.length_append]; simp; omega⟩
    rw [List.forall_mem_append, List.forall_mem_singleton]
    exact ⟨ha.drops, .name _⟩
  next =>
    simp only [yields_bind, yields_pure] at h
    obtain ⟨-, -, -, -, rfl⟩ := h
    refine ⟨⟨ha.adds, ha.drops, ?_⟩, by simp only [count, List.length_append]; simp; omega⟩
    rw [List.forall_mem_append, List.forall_mem_singleton]
    exact ⟨ha.renames, .join (.name _) (by decide) (.name _)⟩
  next => cases yields_reject _ _ h
  next => cases yields_reject _ _ h
  next => cases yields_reject _ _ h
  next => cases yields_reject _ _ h

theorem phrased_addAll {b : Alterations} {specs : List AlterSpec} (ha : a.Phrased raw)
    (h : (addAll table a specs).Yields b) :
  b.Phrased raw ∧ b.count = a.count + specs.length
  := by
  induction specs generalizing a with
  | nil =>
    obtain rfl := (yields_pure _ _).mp h
    exact ⟨ha, rfl⟩
  | cons spec specs ih =>
    obtain ⟨c, hc, hb⟩ := (yields_bind _ _ _).mp h
    obtain ⟨hphrased, hcount⟩ := phrased_add ha hc
    obtain ⟨hb, hlength⟩ := ih hphrased hb
    refine ⟨hb, ?_⟩
    rw [hlength, hcount, List.length_cons]
    omega

theorem phrase_groupCql {parts : List String} (hne : parts ≠ [])
    (hparts : ∀ p ∈ parts, Phrase raw p) :
  Phrase raw (groupCql parts)
  := by
  unfold groupCql
  split
  next part => apply hparts part (by simp)
  next => apply Phrase.behind (.before (by decide) (.intercalate (by decide) hne hparts)) (by decide)

theorem clause_statements (ha : a.Phrased raw) :
  ∀ s ∈ a.statements table, Clause raw "ALTER" s
  := by
  have hstart : Phrase raw ("ALTER TABLE " ++ table.cql) :=
    .before (by decide) (phrase_tableName table)
  have hclause (sep part : String) (hsep : Cql.isSeparator sep = true) (hpart : Phrase raw part) :
      Clause raw "ALTER" ("ALTER TABLE " ++ table.cql ++ sep ++ part) := by
    refine ⟨hstart.join hsep hpart, ?_⟩
    simp only [String.append_assoc]
    apply opens_append (by decide)
  intro s hs
  simp only [statements, List.mem_append] at hs
  rcases hs with (hs | hs) | hs
  · split at hs
    · cases hs
    next hne =>
      obtain rfl := List.mem_singleton.mp hs
      apply hclause _ _ (by decide) (phrase_groupCql (by simpa using hne) ha.adds)
  · split at hs
    · cases hs
    next hne =>
      obtain rfl := List.mem_singleton.mp hs
      apply hclause _ _ (by decide) (phrase_groupCql (by simpa using hne) ha.drops)
  · split at hs
    · cases hs
    next hne =>
      obtain rfl := List.mem_singleton.mp hs
      apply hclause _ _ (by decide) (.intercalate (by decide) (by simpa using hne) ha.renames)

theorem statements_ne_nil (ha : a.count ≠ 0) :
  a.statements table ≠ []
  := by
  have hempty (parts : List String) (s : String)
      (h : (if parts.isEmpty then [] else [s]) = []) : parts.length = 0 := by
    cases parts with
    | nil => rfl
    | cons => cases h
  intro h
  simp only [statements, List.append_eq_nil_iff] at h
  obtain ⟨⟨hadds, hdrops⟩, hrenames⟩ := h
  apply ha
  rw [count, hempty _ _ hadds, hempty _ _ hdrops, hempty _ _ hrenames]

end Alterations

theorem TruncateTable.clause {s : TruncateTable} (h : s.cql.Yields text) :
  Clause raw "TRUNCATE" text
  := by
  simp only [TruncateTable.cql, yields_bind, yields_pure] at h
  obtain ⟨-, -, rfl⟩ := h
  exact ⟨.before (by decide) (phrase_tableName _), opens_append (by decide) _⟩

/-! ### Indexes and views -/

theorem CreateIndex.clause {s : CreateIndex} (h : s.cql.Yields text) :
  Clause raw "CREATE" text
  := by
  unfold CreateIndex.cql at h
  obtain ⟨-, -, h⟩ := (yields_bind _ _ _).mp h
  split at h
  next => cases yields_reject _ _ h
  next =>
    simp only [yields_bind, yields_pure] at h
    obtain ⟨-, -, -, -, -, -, -, -, column, -, rfl⟩ := h
    have hname : isLead (Cql.quoteIdentifier s.name ++ " ") = true :=
      isLead_append (isLead_quoteIdentifier _) (by decide)
    have hlead : isLead ("CREATE INDEX " ++ optionalText s.ifNotExists "IF NOT EXISTS "
        ++ optionalText (s.name ≠ "") (Cql.quoteIdentifier s.name ++ " ") ++ "ON ") = true :=
      isLead_append (isLead_append (isLead_append (by decide) (isLead_optionalText (by decide) _))
        (isLead_optionalText hname _)) (by decide)
    constructor
    · apply Phrase.behind (.join (.before hlead (phrase_tableName _)) (by decide) (.name _))
        (by decide)
    · simp only [String.append_assoc]
      apply opens_append (by decide)

theorem DropIndex.clause {s : DropIndex} (h : s.cql.Yields text) :
  Clause raw "DROP" text
  := by
  simp only [DropIndex.cql, yields_bind, yields_pure] at h
  obtain ⟨-, -, rfl⟩ := h
  apply clause_before (by decide) (by decide) (by decide) (phrase_tableName _)

theorem phrase_viewFilter {keyed : Bool} {key : String} (hraw : ∀ t ∈ filter.copiedTexts, raw t)
    (h : (viewFilterCql filter keyed key).Yields text) :
  Phrase raw text
  := by
  have hguard : Phrase raw (Cql.quoteIdentifier key ++ " IS NOT NULL") :=
    .behind (.name _) (by decide)
  simp only [viewFilterCql] at h
  split at h
  next =>
    obtain rfl := (yields_pure _ _).mp h
    apply hguard
  next =>
    simp only [yields_bind, yields_pure] at h
    obtain ⟨expr, hexpr, rfl⟩ := h
    have hphrase := Expr.phrase_cql _ hraw hexpr
    split
    · apply hphrase
    · apply hphrase.join (by decide) hguard

theorem CreateView.clause {s : CreateView}
    (hraw : ∀ e ∈ (Statement.createView s).renderedExprs, ∀ t ∈ e.copiedTexts, raw t)
    (h : s.cql.Yields text) :
  Clause raw "CREATE" text
  := by
  unfold CreateView.cql at h
  obtain ⟨-, -, h⟩ := (yields_bind _ _ _).mp h
  simp only [Statement.renderedExprs] at hraw
  split at h
  next => cases yields_reject _ _ h
  next query hquery =>
    rw [hquery] at hraw
    simp only [List.mem_cons, List.mem_map] at hraw
    simp only [yields_bind, yields_pure] at h
    obtain ⟨base, -, columns, hcolumns, -, -, filter, hfilter, -, -, -, -, -, -, rfl⟩ := h
    have hcolumns : Phrase raw columns :=
      phrase_columnsCql (fun c hc => hraw c.expr (.inr ⟨c, hc, rfl⟩)) hcolumns
    have hfilter : Phrase raw filter := phrase_viewFilter (hraw query.filter (.inl rfl)) hfilter
    have hlead : isLead ("CREATE MATERIALIZED VIEW "
        ++ optionalText (s.ifNotExists || s.orReplace) "IF NOT EXISTS ") = true :=
      isLead_append (by decide) (isLead_optionalText (by decide) _)
    constructor
    · apply Phrase.intercalate (by decide) (by simp)
      simp only [List.forall_mem_cons, List.not_mem_nil, false_implies, implies_true, and_true]
      refine ⟨?_, ?_, ?_, ?_, ?_⟩
      · apply Phrase.behind (.before hlead (phrase_tableName _)) (by decide)
      · apply Phrase.before (by decide) hcolumns
      · apply Phrase.before (by decide) (phrase_tableName _)
      · apply Phrase.before (by decide) hfilter
      · apply Phrase.behind (.before (by decide) (.name _)) (by decide)
    · rw [String.intercalate_cons_cons]
      simp only [String.append_assoc]
      apply opens_append (by decide)

theorem DropView.clause {s : DropView} (h : s.cql.Yields text) :
  Clause raw "DROP" text
  := by
  simp only [DropView.cql, yields_bind, yields_pure] at h
  obtain ⟨-, -, rfl⟩ := h
  apply clause_before (by decide) (by decide) (by decide) (phrase_tableName _)

end CqlGateway

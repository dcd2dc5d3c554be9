import CqlGateway.Proofs.Catalog.Scripting
import CqlGateway.Proofs.Cql.OneLine
import CqlGateway.Proofs.Execution.Agreement

/-!
# Printed scripts

A script is printed with its warnings in front, each as a comment. Every statement of a script is a
sequence of closed clauses, which is printed with one terminator at its end whether it has one
already or not. So a printed script is read as the statements that its statements are read as, if
every warning is one line: its comment then leaves nothing but a line break.

A warning repeats names of the catalog as they are. If the names are lines, so are the warnings of
every script of a catalog and of every migration between two. A name with a line break ends the
comment of its warning, and what stands behind the break is read as part of a statement.
-/

namespace CqlGateway

open Execution

variable {t : TableSchema}

namespace Script

/-! ### Terminated statements -/

/-- A statement of a script: a clause, or several clauses in a sequence. -/
def IsSequence (statement : String) : Prop :=
  ∃ parts : List String, parts ≠ []
    ∧ (∀ part ∈ parts, Closed false part.toList ∧ Reads part.toList part.toList)
    ∧ statement = sequenceCql parts

theorem toList_terminated {parts : List String} (hne : parts ≠ [])
    (hclosed : ∀ part ∈ parts, Closed false part.toList) :
  (terminated (sequenceCql parts)).toList
    = List.intercalate [';', '\n'] (parts.map String.toList) ++ [';']
  := by
  cases parts with
  | nil => cases hne rfl
  | cons first others =>
    cases others with
    | nil =>
      have hlast := (hclosed first List.mem_cons_self).getLast?_ne_terminator
      simp [sequenceCql, terminated, hlast]
    | cons second others =>
      have hlist : (sequenceCql (first :: second :: others)).toList
          = List.intercalate [';', '\n'] ((first :: second :: others).map String.toList)
            ++ [';'] := by
        change (String.intercalate ";\n" (first :: second :: others) ++ ";").toList = _
        rw [String.toList_append, String.toList_intercalate]
        rfl
      have hlast : (sequenceCql (first :: second :: others)).toList.getLast? = some ';' := by
        rw [hlist, List.getLast?_concat]
      rw [terminated, if_pos hlast, hlist]

/-- A printed statement is read as the statements of which it is the sequence, whatever follows. -/
theorem IsSequence.statementChars_terminated {statement : String} (h : IsSequence statement)
    {bs : List Char} (hbs : isMargin bs = true) (rest : List Char) :
  statementChars (bs ++ (terminated statement).toList ++ rest)
    = statementChars statement.toList ++ statementChars rest
  := by
  obtain ⟨parts, hne, hparts, rfl⟩ := h
  have hreads : List.Forall₂ Reads (parts.map String.toList) (parts.map String.toList) := by
    rw [List.forall₂_map_left_iff, List.forall₂_map_right_iff, List.forall₂_same]
    exact fun part hpart => (hparts part hpart).2
  rw [statementChars_sequenceCql hreads hne,
    toList_terminated hne fun part hpart => (hparts part hpart).1]
  cases parts with
  | nil => cases hne rfl
  | cons first others =>
    rw [List.map_cons] at hreads ⊢
    cases hreads with
    | cons hfirst hothers =>
      have hbreak : isMargin ['\n'] = true := by decide
      have hrest := Execution.statementChars_terminated hbreak hothers rest
      rw [intercalate_terminators]
      simp only [List.nil_append, List.append_nil, List.append_assoc, List.cons_append]
        at hrest ⊢
      rw [← List.append_assoc, statementChars_cons hbs hfirst, hrest]

theorem statementChars_printed {statements : List String} (hne : statements ≠ [])
    (h : ∀ st ∈ statements, IsSequence st) {bs : List Char} (hbs : isMargin bs = true)
    (rest : List Char) :
  statementChars
      (bs ++ (String.intercalate "\n\n" (statements.map terminated)).toList ++ rest)
    = statements.flatMap (fun st => statementChars st.toList) ++ statementChars rest
  := by
  induction statements generalizing bs with
  | nil => cases hne rfl
  | cons st sts ih =>
    rw [List.forall_mem_cons] at h
    cases sts with
    | nil => simpa using h.1.statementChars_terminated hbs rest
    | cons next sts =>
      have hbreaks : isMargin "\n\n".toList = true := by decide
      rw [List.flatMap_cons, List.append_assoc (statementChars _),
        ← ih (List.cons_ne_nil _ _) h.2 hbreaks,
        ← h.1.statementChars_terminated hbs, List.map_cons, List.map_cons,
        String.intercalate_cons_cons]
      simp only [String.toList_append, List.append_assoc]

/-! ### Comments -/

theorem pieces_comments {warnings : List String} (h : ∀ w ∈ warnings, IsOneLine w)
    (acc rest : List Char) :
  pieces .plain acc
      ((String.join (warnings.map fun w => "-- " ++ w ++ "\n")).toList ++ rest)
    = pieces .plain (List.replicate warnings.length '\n' ++ acc) rest
  := by
  induction warnings generalizing acc with
  | nil => rfl
  | cons w ws ih =>
    rw [List.forall_mem_cons] at h
    have hspace : '\n' ∉ ' ' :: w.toList := by simpa [IsOneLine] using h.1
    have hline (cs : List Char) :
        ("-- " ++ w ++ "\n").toList ++ cs = '-' :: '-' :: ((' ' :: w.toList) ++ '\n' :: cs) := by
      simp
    rw [List.map_cons, String.join_cons, String.toList_append, List.append_assoc, hline, pieces,
      pieces_comment hspace, ih h.2, List.length_cons, List.replicate_succ', List.append_assoc]
    rfl

/-- Behind the comments of warnings, a text is read as behind line breaks. -/
theorem statementChars_comments {warnings : List String} (h : ∀ w ∈ warnings, IsOneLine w)
    (rest : List Char) :
  statementChars ((String.join (warnings.map fun w => "-- " ++ w ++ "\n")).toList ++ rest)
    = statementChars (List.replicate warnings.length '\n' ++ rest)
  := by
  have hleads := isMargin_breaks warnings.length
  rw [isMargin, Bool.and_eq_true] at hleads
  rw [statementChars, statementChars, pieces_comments h, pieces_of_leadsOut hleads.2,
    List.reverse_replicate]

/-- A printed script whose warnings are lines is read as its statements. -/
theorem statements_text {s : Script} (hstatements : ∀ st ∈ s.statements, IsSequence st)
    (hwarnings : ∀ w ∈ s.warnings, IsOneLine w) :
  Execution.statements s.text = s.statements.flatMap Execution.statements
  := by
  have hchars : statementChars s.text.toList
      = s.statements.flatMap fun st => statementChars st.toList := by
    rw [text]
    by_cases hne : s.statements = []
    · have hcomments := statementChars_comments hwarnings []
      rw [List.append_nil, List.append_nil, statementChars_margin (isMargin_breaks _)] at hcomments
      simpa [hne] using hcomments
    · obtain ⟨n, hn⟩ : ∃ n, (if !s.warnings.isEmpty && !s.statements.isEmpty then "\n"
          else "").toList = List.replicate n '\n' := by
        split
        · exact ⟨1, rfl⟩
        · exact ⟨0, rfl⟩
      simp only [String.toList_append, List.append_assoc, hn, statementChars_comments hwarnings]
      rw [← List.append_assoc, ← List.replicate_add, ← List.append_assoc,
        statementChars_printed hne hstatements (isMargin_breaks _), if_neg (by simpa using hne),
        statementChars_margin (by decide), List.append_nil]
  rw [Execution.statements, hchars, List.map_flatMap]
  rfl

end Script

/-! ### Statements of scripts -/

/-- A statement as scripts hold them. It is rendered as a sequence; under an assumption, that the
names in it are lines, its warnings and its failure are lines, too. -/
structure Statement.IsScripted (options : RenderingOptions) (lines : Prop) (s : Statement) :
    Prop where
  sequence : ∀ r, s.render options = .ok r → Script.IsSequence r.text
  warnings : lines → ∀ r, s.render options = .ok r → ∀ w ∈ r.warnings, IsOneLine w
  failure : lines → ∀ f, s.render options = .error f → IsOneLine f.diagnostic

variable {options : RenderingOptions} {lines : Prop} {keyspace table : String}

theorem Statement.isScripted_of_draft {s : Statement} {d : Draft String}
    (hd : s.normalize.family.draft? options s.normalize = some d)
    (hcopied : ∀ t ∈ s.copiedTexts options, IsSolid t)
    (hsequence : ∀ parts, s.textOf parts = sequenceCql parts)
    (htells : lines → d.Tells IsOneLine) :
  s.IsScripted options lines
  where
  sequence r hr := by
    obtain ⟨parts, -, hne, hclauses, htext⟩ := exists_parts hcopied ⟨r, hr, rfl⟩
    refine ⟨parts, hne, ?_, htext.trans (hsequence parts)⟩
    intro part hpart
    have hclause := hclauses part hpart
    exact ⟨hclause.phrase.closed (fun _ h => h.1), hclause.reads (fun _ h => h.1) (fun _ h => h.2)⟩
  warnings h := (isOneLine_of_tells hd (htells h)).1
  failure h := (isOneLine_of_tells hd (htells h)).2

theorem Statement.isScripted_createKeyspace
    (hstrategy : '\x27' ∉ options.replication.strategy.toList) {s : CreateKeyspace}
    (hoptions : s.options = []) :
  (Statement.createKeyspace s).IsScripted options lines
  :=
  isScripted_of_draft rfl (IsSolid_of_copiedTexts hstrategy (List.forall_mem_nil _))
    (fun _ => rfl) fun _ => CreateKeyspace.tells_cql hoptions

/-- A table whose names are lines: its own and those of its columns, indexes and foreign keys. -/
structure TableSchema.HasLineNames (t : TableSchema) : Prop where
  name : IsOneLine t.name
  columns : ∀ c ∈ t.columns, IsOneLine c.name
  indexes : ∀ i ∈ t.indexes, IsOneLine i.name ∧ ∀ c ∈ i.columns, IsOneLine c
  foreignKeys : ∀ k ∈ t.foreignKeys, IsOneLine k.name ∧ IsOneLine k.column

instance (t : TableSchema) : Decidable t.HasLineNames :=
  decidable_of_iff
    (IsOneLine t.name ∧ (∀ c ∈ t.columns, IsOneLine c.name)
      ∧ (∀ i ∈ t.indexes, IsOneLine i.name ∧ ∀ c ∈ i.columns, IsOneLine c)
      ∧ ∀ k ∈ t.foreignKeys, IsOneLine k.name ∧ IsOneLine k.column)
    ⟨fun ⟨a, b, c, d⟩ => ⟨a, b, c, d⟩, fun ⟨a, b, c, d⟩ => ⟨a, b, c, d⟩⟩

theorem TableSchema.isScripted_createTable (hkeyspace : lines → IsOneLine keyspace)
    (ht : lines → t.HasLineNames) :
  (Statement.createTable (t.createTable keyspace)).IsScripted options lines
  :=
  Statement.isScripted_of_draft rfl (List.forall_mem_nil _) (fun _ => rfl) fun h =>
    CreateTable.tells_cql (TableName.isOneLine_dotted (hkeyspace h) (ht h).name) (ht h).columns

theorem Index.isScripted_create {i : Index} (hkeyspace : lines → IsOneLine keyspace)
    (htable : lines → IsOneLine table) (hi : lines → ∀ c ∈ i.columns, IsOneLine c) :
  (Statement.createIndex (i.create keyspace table)).IsScripted options lines
  := by
  refine Statement.isScripted_of_draft rfl (List.forall_mem_nil _) (fun _ => rfl) fun h =>
    CreateIndex.tells_cql (TableName.isOneLine_dotted (hkeyspace h) (htable h)) ?_
  intro c hc
  obtain ⟨name, hname, rfl⟩ := List.mem_map.mp hc
  exact ⟨hi h name hname, rfl⟩

theorem TableSchema.mem_createIndexes {c : CreateIndex} (h : c ∈ t.createIndexes keyspace) :
  ∃ i ∈ t.indexes, c = i.create keyspace t.name
  := by
  obtain ⟨i, hi, rfl⟩ := List.mem_map.mp h
  exact ⟨i, (List.mem_filter.mp hi).1, rfl⟩

theorem Statement.isScripted_dropTable (s : DropTable) :
  (Statement.dropTable s).IsScripted options lines
  :=
  isScripted_of_draft rfl (List.forall_mem_nil _) (fun _ => rfl) fun _ => s.tells_cql

theorem Statement.isScripted_dropIndex (s : DropIndex) :
  (Statement.dropIndex s).IsScripted options lines
  :=
  isScripted_of_draft rfl (List.forall_mem_nil _) (fun _ => rfl) fun _ => s.tells_cql

theorem Statement.isScripted_alterTable (hkeyspace : lines → IsOneLine keyspace)
    (htable : lines → IsOneLine table) {specs : List AlterSpec}
    (hspecs : lines → ∀ spec ∈ specs, IsOneLine spec.column.name ∧ IsOneLine spec.oldName) :
  (Statement.alterTable
    { table := ⟨keyspace, table⟩, specs := some specs }).IsScripted options lines
  :=
  isScripted_of_draft rfl (List.forall_mem_nil _) (fun _ => rfl) fun h =>
    AlterTable.tells_cql (TableName.isOneLine_dotted (hkeyspace h) (htable h)) (hspecs h)

/-! ### Steps of a script -/

namespace Script

variable {s : Script}

/-- The statements of a script are sequences; under an assumption its warnings are lines. -/
structure Prints (lines : Prop) (s : Script) : Prop where
  statements : ∀ st ∈ s.statements, IsSequence st
  warnings : lines → ∀ w ∈ s.warnings, IsOneLine w

theorem prints_empty :
  Prints lines {}
  := ⟨List.forall_mem_nil _, fun _ => List.forall_mem_nil _⟩

theorem Prints.skip (h : s.Prints lines) (table : String) :
  (s.skip table).Prints lines
  := ⟨h.statements, h.warnings⟩

theorem Prints.warn (h : s.Prints lines) {warning : String} (hwarning : lines → IsOneLine warning) :
  (s.warn warning).Prints lines
  where
  statements := h.statements
  warnings hlines := by
    rw [Script.warn, List.forall_mem_append, List.forall_mem_singleton]
    exact ⟨h.warnings hlines, hwarning hlines⟩

theorem Prints.foldl_warn (h : s.Prints lines) {warnings : List String}
    (hwarnings : ∀ w ∈ warnings, lines → IsOneLine w) :
  (warnings.foldl Script.warn s).Prints lines
  := by
  induction warnings generalizing s with
  | nil => exact h
  | cons w ws ih =>
    rw [List.forall_mem_cons] at hwarnings
    exact ih (h.warn hwarnings.1) hwarnings.2

/-- A scripted statement goes into a script, or its failure is told in one line. -/
theorem Prints.add (h : s.Prints lines) (htable : lines → IsOneLine table) {st : Statement}
    (hst : st.IsScripted options lines) :
  (s.add options table st).1.Prints lines
    ∧ ∀ f, (s.add options table st).2 = some f → lines → IsOneLine f.diagnostic
  := by
  unfold Script.add Attempt.ofStatement
  dsimp only
  split
  next f hf =>
    refine ⟨⟨h.statements, h.warnings⟩, ?_⟩
    rintro _ ⟨⟩ hlines
    exact hst.failure hlines f hf
  next r hr =>
    refine ⟨⟨?_, ?_⟩, nofun⟩
    · rw [List.forall_mem_append, List.forall_mem_singleton]
      exact ⟨h.statements, hst.sequence r hr⟩
    · intro hlines
      rw [List.forall_mem_append, List.forall_mem_map]
      refine ⟨h.warnings hlines, ?_⟩
      intro w hw
      have hw := hst.warnings hlines r hr w hw
      split
      · exact hw
      · exact ((htable hlines).append (.ofList (by decide))).append hw

/-! ### The script of a catalog -/

theorem Prints.addIndex (h : s.Prints lines) (htable : lines → IsOneLine table) {i : CreateIndex}
    (hname : lines → IsOneLine i.name) (hi : (Statement.createIndex i).IsScripted options lines) :
  (s.addIndex options table i).Prints lines
  := by
  obtain ⟨hnext, hfailure⟩ := h.add htable hi
  unfold Script.addIndex
  split
  next next hadd =>
    rw [hadd] at hnext
    exact hnext
  next next f hadd =>
    rw [hadd] at hnext hfailure
    apply hnext.warn
    intro hlines
    exact ((((htable hlines).append (.ofList (by decide))).append (hname hlines)).append
      (.ofList (by decide))).append (hfailure f rfl hlines)

theorem Prints.addIndexes (h : s.Prints lines) (htable : lines → IsOneLine table)
    {is : List CreateIndex} (his : ∀ i ∈ is, (lines → IsOneLine i.name)
      ∧ (Statement.createIndex i).IsScripted options lines) :
  (is.foldl (Script.addIndex options table) s).Prints lines
  := by
  induction is generalizing s with
  | nil => exact h
  | cons i is ih =>
    rw [List.forall_mem_cons] at his
    exact ih (h.addIndex htable his.1.1 his.1.2) his.2

theorem isOneLine_foreignKeyWarning {k : ForeignKey} (htable : IsOneLine table)
    (hname : IsOneLine k.name) (hcolumn : IsOneLine k.column) :
  IsOneLine (foreignKeyWarning table k)
  :=
  ((((htable.append (.ofList (by decide))).append hname).append (.ofList (by decide))).append
    hcolumn).append (.ofList (by decide))

theorem Prints.addTable (h : s.Prints lines) (hkeyspace : lines → IsOneLine keyspace)
    {name : String} (hname : lines → IsOneLine name) (ht : lines → t.HasLineNames) :
  (s.addTable options keyspace name t).Prints lines
  := by
  have hcreate : (Statement.createTable (t.createTable keyspace)).IsScripted options lines :=
    TableSchema.isScripted_createTable hkeyspace ht
  obtain ⟨hnext, hfailure⟩ := h.add hname hcreate
  unfold Script.addTable
  split
  next next f hadd =>
    rw [hadd] at hnext hfailure
    apply (hnext.skip name).warn
    intro hlines
    exact ((hname hlines).append (.ofList (by decide))).append (hfailure f rfl hlines)
  next next hadd =>
    rw [hadd] at hnext
    apply Prints.foldl_warn
    · apply hnext.addIndexes hname
      intro c hc
      obtain ⟨i, hi, rfl⟩ := TableSchema.mem_createIndexes hc
      exact ⟨fun hlines => ((ht hlines).indexes i hi).1, Index.isScripted_create hkeyspace
        (fun hlines => (ht hlines).name) fun hlines => ((ht hlines).indexes i hi).2⟩
    · rw [List.forall_mem_map]
      intro k hk hlines
      obtain ⟨hkey, hcolumn⟩ := (ht hlines).foreignKeys k hk
      exact isOneLine_foreignKeyWarning (hname hlines) hkey hcolumn

theorem Prints.addTables (h : s.Prints lines) (hkeyspace : lines → IsOneLine keyspace)
    {source : TableSource} {names : List String}
    (hnames : lines → ∀ name ∈ names, IsOneLine name
      ∧ ∀ t, source.table name = .ok t → t.HasLineNames) :
  (addTables options keyspace source s names).1.Prints lines
  := by
  induction names generalizing s with
  | nil => exact h
  | cons name names ih =>
    have hhead (hlines : lines) := (List.forall_mem_cons.mp (hnames hlines)).1
    have htail (hlines : lines) := (List.forall_mem_cons.mp (hnames hlines)).2
    unfold Script.addTables TableSource.read
    cases htable : source.table name with
    | error f => exact h
    | ok t =>
      exact ih (h.addTable hkeyspace (fun hlines => (hhead hlines).1)
        fun hlines => (hhead hlines).2 t htable) htail

theorem prints_addKeyspace (hstrategy : '\x27' ∉ options.replication.strategy.toList)
    (keyspace : String) :
  (addKeyspace {} options keyspace).1.Prints lines
  := by
  unfold addKeyspace
  split
  · exact prints_empty
  · exact (prints_empty.add (fun _ => .empty)
      (Statement.isScripted_createKeyspace hstrategy rfl)).1

theorem prints_ofCatalog (hstrategy : '\x27' ∉ options.replication.strategy.toList)
    (hkeyspace : lines → IsOneLine keyspace) {source : TableSource} {only : List String}
    (hnames : lines → ∀ names, source.chosen only = .ok names → ∀ name ∈ names,
      IsOneLine name ∧ ∀ t, source.table name = .ok t → t.HasLineNames)
    (h : ofCatalog options keyspace source only = .ok s) :
  s.Prints lines
  := by
  have hspace : (addKeyspace {} options keyspace).1.Prints lines :=
    prints_addKeyspace hstrategy keyspace
  unfold ofCatalog build at h
  cases hchosen : source.chosen only with
  | error f => simp [hchosen] at h
  | ok names =>
    cases hadd : addKeyspace {} options keyspace with
    | mk first failed =>
      rw [hadd] at hspace
      have htables : (addTables options keyspace source first names).1.Prints lines :=
        hspace.addTables hkeyspace fun hlines => hnames hlines names hchosen
      cases failed with
      | some f => simp [hchosen, hadd] at h
      | none =>
        simp only [hchosen, hadd] at h
        split at h
        next next hnext =>
          cases h
          rw [hnext] at htables
          exact htables
        next => cases h

/-! ### Steps of a migration -/

theorem isOneLine_kindName (k : StatementKind) :
  IsOneLine k.name
  := by
  cases k <;> exact .ofList (by decide)

theorem Prints.attempt (h : s.Prints lines) (htable : lines → IsOneLine table) {st : Statement}
    (hst : st.IsScripted options lines) :
  (s.attempt options table st).1.Prints lines
  := by
  obtain ⟨hnext, hfailure⟩ := h.add htable hst
  unfold Script.attempt
  split
  next next hadd =>
    rw [hadd] at hnext
    exact hnext
  next next f hadd =>
    rw [hadd] at hnext hfailure
    apply hnext.warn
    intro hlines
    exact ((((htable hlines).append (.ofList (by decide))).append (isOneLine_kindName _)).append
      (.ofList (by decide))).append (hfailure f rfl hlines)

theorem Prints.attemptAll (h : s.Prints lines) (htable : lines → IsOneLine table)
    {sts : List Statement} (hsts : ∀ st ∈ sts, st.IsScripted options lines) :
  (s.attemptAll options table sts).Prints lines
  := by
  induction sts generalizing s with
  | nil => exact h
  | cons st sts ih =>
    rw [List.forall_mem_cons] at hsts
    exact ih (h.attempt htable hsts.1) hsts.2

theorem Prints.addNewTable (h : s.Prints lines) (hkeyspace : lines → IsOneLine keyspace)
    (ht : lines → t.HasLineNames) :
  (s.addNewTable options keyspace t).Prints lines
  := by
  have hname (hlines : lines) := (ht hlines).name
  have hcreate : (Statement.createTable (t.createTable keyspace)).IsScripted options lines :=
    TableSchema.isScripted_createTable hkeyspace ht
  have hnext := h.attempt hname hcreate
  unfold Script.addNewTable
  split
  next next hattempt =>
    rw [hattempt] at hnext
    exact hnext.skip t.name
  next next hattempt =>
    rw [hattempt] at hnext
    apply hnext.attemptAll hname
    rw [List.forall_mem_map]
    intro c hc
    obtain ⟨i, hi, rfl⟩ := TableSchema.mem_createIndexes hc
    exact Index.isScripted_create hkeyspace hname fun hlines => ((ht hlines).indexes i hi).2

end Script

/-! ### Differences -/

/-- An alteration whose names are lines. -/
structure TableAlteration.HasLineNames (a : TableAlteration) : Prop where
  name : IsOneLine a.new.name
  oldColumns : ∀ c ∈ a.columns, ∀ column, c.old? = some column → IsOneLine column.name
  newColumns : ∀ c ∈ a.columns, ∀ column, c.new? = some column → IsOneLine column.name
  newIndexes : ∀ c ∈ a.indexes, ∀ i, c.new? = some i → ∀ column ∈ i.columns, IsOneLine column
  foreignKeys : ∀ c ∈ a.foreignKeys, IsOneLine c.name

theorem TableAlteration.hasLineNames_between {old new : TableSchema} (hold : old.HasLineNames)
    (hnew : new.HasLineNames) :
  (between old new).HasLineNames
  where
  name := hnew.name
  oldColumns _ hc column hcolumn := hold.columns column (Change.mem_of_old? hc hcolumn)
  newColumns _ hc column hcolumn := hnew.columns column (Change.mem_of_new? hc hcolumn)
  newIndexes _ hc i hi :=
    (hnew.indexes i (List.mem_filter.mp (Change.mem_of_new? hc hi)).1).2
  foreignKeys c hc := by
    obtain ⟨k, hk, hname⟩ := Change.exists_key_eq_name hc
    rw [← hname]
    rcases List.mem_append.mp hk with hk | hk
    · exact (hold.foreignKeys k hk).1
    · exact (hnew.foreignKeys k hk).1

/-- A difference whose names are lines. -/
def TableDifference.HasLineNames : TableDifference → Prop
  | .added _ t => t.HasLineNames
  | .dropped name _ => IsOneLine name
  | .altered a => a.HasLineNames

theorem TableDifference.hasLineNames_of_mem_compare {old new : Catalog.Tables}
    (h : ∀ p ∈ old ++ new, IsOneLine p.1 ∧ p.2.HasLineNames) :
  ∀ d ∈ old.compare new, d.HasLineNames
  := by
  intro d hd
  obtain ⟨name, -, hat⟩ := List.mem_filterMap.mp hd
  have hold {t : TableSchema} (hget : old.get? name = some t) :=
    h _ (List.mem_append_left _ (Catalog.Tables.mem_of_get? hget))
  have hnew {t : TableSchema} (hget : new.get? name = some t) :=
    h _ (List.mem_append_right _ (Catalog.Tables.mem_of_get? hget))
  unfold at? at hat
  split at hat
  next => cases hat
  next n _ hget =>
    cases hat
    exact (hnew hget).2
  next o hget _ =>
    cases hat
    exact (hold hget).1
  next o n hgetOld hgetNew =>
    dsimp only at hat
    split at hat
    next => cases hat
    next =>
      cases hat
      exact TableAlteration.hasLineNames_between (hold hgetOld).2 (hnew hgetNew).2

namespace Script

variable {s : Script}

theorem isScripted_indexDrops (keyspace table : String) (cs : List (Change Index)) :
  ∀ st ∈ indexDrops keyspace table cs, st.IsScripted options lines
  := by
  intro st hst
  obtain ⟨c, -, hc⟩ := List.mem_filterMap.mp hst
  obtain ⟨i, -, rfl⟩ := Option.map_eq_some_iff.mp hc
  apply Statement.isScripted_dropIndex

variable {a : TableAlteration}

theorem isScripted_indexAdditions (hkeyspace : lines → IsOneLine keyspace)
    (ha : lines → a.HasLineNames) :
  ∀ st ∈ indexAdditions keyspace a.new.name a.indexes, st.IsScripted options lines
  := by
  intro st hst
  obtain ⟨c, hc, hnew⟩ := List.mem_filterMap.mp hst
  obtain ⟨i, hi, rfl⟩ := Option.map_eq_some_iff.mp hnew
  exact Index.isScripted_create hkeyspace (fun hlines => (ha hlines).name) fun hlines =>
    (ha hlines).newIndexes c hc i hi

theorem isScripted_columnModifications (hkeyspace : lines → IsOneLine keyspace)
    (ha : lines → a.HasLineNames) :
  ∀ st ∈ columnModifications keyspace a.new.name a.columns, st.IsScripted options lines
  := by
  intro st hst
  obtain ⟨c, hc, hst⟩ := List.mem_filterMap.mp hst
  split at hst
  next k o n =>
    cases hst
    apply Statement.isScripted_alterTable hkeyspace fun hlines => (ha hlines).name
    intro hlines
    rw [List.forall_mem_singleton]
    exact ⟨(ha hlines).newColumns _ hc n rfl, .empty⟩
  next => cases hst

theorem isScripted_columnAlteration (hkeyspace : lines → IsOneLine keyspace)
    (ha : lines → a.HasLineNames) :
  ∀ st ∈ columnAlteration keyspace a.new.name a.columns, st.IsScripted options lines
  := by
  unfold columnAlteration
  split
  · exact List.forall_mem_nil _
  · rw [List.forall_mem_singleton]
    apply Statement.isScripted_alterTable hkeyspace fun hlines => (ha hlines).name
    intro hlines spec hspec
    obtain ⟨c, hc, hspec⟩ := List.mem_filterMap.mp hspec
    split at hspec
    next k o =>
      cases hspec
      exact ⟨(ha hlines).oldColumns _ hc o rfl, .empty⟩
    next k n =>
      cases hspec
      exact ⟨(ha hlines).newColumns _ hc n rfl, .empty⟩
    next => cases hspec

theorem isOneLine_foreignKeyChangeWarning {c : Change ForeignKey} (htable : IsOneLine table)
    (hname : IsOneLine c.name) :
  IsOneLine (foreignKeyChangeWarning table c)
  := by
  have haction : IsOneLine c.action.name := by
    cases c.action <;> exact .ofList (by decide)
  exact ((((htable.append (.ofList (by decide))).append hname).append (.ofList (by decide))).append
    haction).append (.ofList (by decide))

theorem Prints.alter (h : s.Prints lines) (hkeyspace : lines → IsOneLine keyspace)
    (ha : lines → a.HasLineNames) :
  (s.alter options keyspace a).Prints lines
  := by
  have hname (hlines : lines) := (ha hlines).name
  unfold Script.alter
  apply Prints.foldl_warn
  · apply Prints.attemptAll _ hname
    · intro st hst
      simp only [List.mem_append] at hst
      rcases hst with ((hst | hst) | hst) | hst
      · exact isScripted_indexDrops keyspace a.new.name a.indexes st hst
      · exact isScripted_columnModifications hkeyspace ha st hst
      · exact isScripted_columnAlteration hkeyspace ha st hst
      · exact isScripted_indexAdditions hkeyspace ha st hst
    · split
      · exact h.warn fun hlines => (hname hlines).append (.ofList (by decide))
      · exact h
  · rw [List.forall_mem_map]
    intro c hc hlines
    exact isOneLine_foreignKeyChangeWarning (hname hlines) ((ha hlines).foreignKeys c hc)

theorem Prints.migrateTable (h : s.Prints lines) (hkeyspace : lines → IsOneLine keyspace)
    {d : TableDifference} (hd : lines → d.HasLineNames) :
  (s.migrateTable options keyspace d).Prints lines
  := by
  cases d with
  | added name t => exact h.addNewTable hkeyspace hd
  | dropped name t => exact h.attempt hd (Statement.isScripted_dropTable _)
  | altered a => exact h.alter hkeyspace hd

theorem prints_migration (hkeyspace : lines → IsOneLine keyspace) {ds : List TableDifference}
    (hds : ∀ d ∈ ds, lines → d.HasLineNames) :
  (migration options keyspace ds).Prints lines
  := by
  have hstep (s : Script) (hs : s.Prints lines) :
      (ds.foldl (Script.migrateTable options keyspace) s).Prints lines := by
    induction ds generalizing s with
    | nil => exact hs
    | cons d ds ih =>
      rw [List.forall_mem_cons] at hds
      exact ih hds.2 _ (hs.migrateTable hkeyspace hds.1)
  exact hstep {} prints_empty

/-! ### Scripts by their origin -/

/-- What a script is made from: a catalog as it is read, with the tables to read if not all are, or
two catalogs that are compared. -/
inductive Origin where
  | catalog (source : TableSource) (only : List String)
  | comparison (old new : Catalog.Tables)

namespace Origin

/-- The script that is made from an origin. -/
def script (options : RenderingOptions) (keyspace : String) : Origin → Except Failure Script
  | catalog source only => ofCatalog options keyspace source only
  | comparison old new => .ok (migration options keyspace (old.compare new))

/-- Whether all names that a script can repeat are lines. -/
def HasLineNames : Origin → Prop
  | catalog source only => ∀ names, source.chosen only = .ok names → ∀ name ∈ names,
      IsOneLine name ∧ ∀ t, source.table name = .ok t → t.HasLineNames
  | comparison old new => ∀ p ∈ old ++ new, IsOneLine p.1 ∧ p.2.HasLineNames

theorem prints_script {origin : Origin} {script : Script}
    (hstrategy : '\x27' ∉ options.replication.strategy.toList)
    (h : origin.script options keyspace = .ok script) :
  script.Prints (IsOneLine keyspace ∧ origin.HasLineNames)
  := by
  cases origin with
  | catalog source only =>
    exact prints_ofCatalog hstrategy (fun hlines => hlines.1) (fun hlines => hlines.2) h
  | comparison old new =>
    cases h
    apply prints_migration (fun hlines => hlines.1)
    intro d hd hlines
    exact TableDifference.hasLineNames_of_mem_compare hlines.2 d hd

end Origin

/-- A printed script whose warnings are lines is read as its statements are, one after the other.
Its warnings are lines if the keyspace and the names in its origin are. Without its warnings a
script is always read so. -/
theorem statements_text_of_origin {origin : Origin} {script : Script}
    (hstrategy : '\x27' ∉ options.replication.strategy.toList)
    (h : origin.script options keyspace = .ok script) :
  ((∀ w ∈ script.warnings, IsOneLine w) →
      Execution.statements script.text = script.statements.flatMap Execution.statements)
    ∧ (IsOneLine keyspace → origin.HasLineNames → ∀ w ∈ script.warnings, IsOneLine w)
    ∧ Execution.statements { script with warnings := [] }.text
      = script.statements.flatMap Execution.statements
  := by
  have hprints := Origin.prints_script hstrategy h
  refine ⟨statements_text hprints.statements, fun hkeyspace hnames =>
    hprints.warnings ⟨hkeyspace, hnames⟩, ?_⟩
  exact @statements_text { script with warnings := [] } hprints.statements (List.forall_mem_nil _)

/-- A catalog with a terminator in the name of a column about which much is told. -/
def notedOrders : Origin :=
  .catalog
    { names := .ok ["orders"]
      table _ := .ok
        { name := "orders"
          columns := [{ name := "id", sourceType := "int", primaryKey := true },
            { name := "no;te", sourceType := "text", defaultValue := some "none" }]
          indexes := [{ name := "by_note", columns := ["no;te", "id"] }]
          foreignKeys := [{ name := "fk_note", column := "no;te" }] } }
    []

theorem statements_text_notedOrders :
  ∃ script, notedOrders.script {} "shop" = .ok script
    ∧ script.warnings.length = 3 ∧ (∀ w ∈ script.warnings, IsOneLine w)
    ∧ Execution.statements script.text = script.statements.flatMap Execution.statements
  := by
  obtain ⟨script, hscript, hlength⟩ : ∃ script,
      notedOrders.script {} "shop" = .ok script ∧ script.warnings.length = 3 := ⟨_, rfl, rfl⟩
  have hnames : notedOrders.HasLineNames := by
    rintro names ⟨⟩
    rw [List.forall_mem_singleton]
    refine ⟨.ofList (by decide), ?_⟩
    rintro t ⟨⟩
    decide
  obtain ⟨htext, hlines, -⟩ := statements_text_of_origin (by decide) hscript
  have hwarnings := hlines (by decide) hnames
  exact ⟨script, hscript, hlength, hwarnings, htext hwarnings⟩

/-- A catalog with a line break in the name of a column that has a default. -/
def brokenName : Origin :=
  .catalog
    { names := .ok ["t"]
      table _ := .ok
        { name := "t"
          columns := [{ name := "id", sourceType := "int", primaryKey := true },
            { name := "a\nDROP TABLE users; --", sourceType := "text",
              defaultValue := some "x" }] } }
    []

/-- The statement and the warning that are printed for that catalog. -/
def brokenScript : Script where
  statements :=
    ["CREATE TABLE IF NOT EXISTS t (\n  id int,\n  \"a\nDROP TABLE users; --\" text,\n  PRIMARY KEY (id)\n)"]
  warnings :=
    ["t: column a\nDROP TABLE users; --: DEFAULT values are not supported by CQL; dropped"]
  tried := [("create_table", true)]

theorem script_brokenName :
  brokenName.script {} "" = .ok brokenScript
  := (rfl)

/-- The warning about the default ends its comment, and a further statement is read. -/
theorem statements_text_brokenName :
  ∃ script, brokenName.script {} "" = .ok script
    ∧ script.statements.flatMap Execution.statements = script.statements
    ∧ Execution.statements script.text = "DROP TABLE users" :: script.statements
  := by
  have hprints := Origin.prints_script (by decide) script_brokenName
  -- The remark is read up to its line break as a comment and behind its terminator as another one.
  have hremark (w : String) (hw : brokenScript.warnings = [w]) (rest : List Char) :
      statementChars ('-' :: '-' :: ' ' :: (w.toList ++ '\n' :: '\n' :: rest))
        = "DROP TABLE users".toList :: statementChars ([' ', '\n', '\n'] ++ rest) := by
    obtain ⟨rfl⟩ := hw
    rw [String.toList_ofList, String.toList_ofList]
    rfl
  have hsingle (st : String) (hst : brokenScript.statements = [st]) :
      statementChars st.toList = [st.toList] := by
    obtain ⟨rfl⟩ := hst
    rw [String.toList_ofList]
    rfl
  use brokenScript, script_brokenName
  obtain ⟨st, hst⟩ : ∃ st, brokenScript.statements = [st] := ⟨_, rfl⟩
  obtain ⟨w, hw⟩ : ∃ w, brokenScript.warnings = [w] := ⟨_, rfl⟩
  have hsequence : IsSequence st := by
    apply hprints.statements
    rw [hst]
    apply List.mem_singleton_self
  have htext : brokenScript.text.toList = '-' :: '-' :: ' '
      :: (w.toList ++ '\n' :: '\n' :: ((terminated st).toList ++ ['\n'])) := by
    simp [text, hst, hw, String.join]
  constructor
  · simp [hst, Execution.statements, hsingle st hst]
  · have hbreak : statementChars ['\n'] = [] := rfl
    rw [Execution.statements, htext, hremark w hw, ← List.append_assoc,
      hsequence.statementChars_terminated (by decide), hsingle st hst, hbreak, hst]
    simp

end Script

end CqlGateway

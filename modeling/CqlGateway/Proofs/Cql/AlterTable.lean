import CqlGateway.Proofs.Cql.TableChange

/-!
# Statements that alter a table

The alterations of a table are rendered as at most three statements, one for each kind. What these
statements do is read from their text. Main statement: they do what the alterations do one after
another, whatever the columns of the table are, if alterations of one column stand in the order in
which the kinds are rendered; and only then, but for columns that are renamed to, dropped and added.
-/

namespace CqlGateway

open Cql (Lexeme ColumnType)

/-- The change that an alteration asks for, as the store has it. -/
def AlterSpec.change? (spec : AlterSpec) : Option TableChange :=
  match spec.action with
  | "add" => some (.add [spec.column.stored])
  | "drop" => some (.drop [Cql.storedName spec.columnName])
  | "rename" => some (.rename [(Cql.storedName spec.oldName, Cql.storedName spec.newName)])
  | _ => none

namespace TableChange

/-! ### Reading -/

/-- The old and the new names of columns that are renamed. -/
def renames? : List Lexeme → Option (List (String × String))
  | [old, .word link, new] =>
    if link = "TO" then do return [(← old.identifier?, ← new.identifier?)] else none
  | old :: .word link :: new :: .word next :: rest =>
    if link = "TO" ∧ next = "AND" then do
      return (← old.identifier?, ← new.identifier?) :: (← renames? rest)
    else
      none
  | _ => none

/-- What renames columns of a table. -/
def readRename? (ls : List Lexeme) : Option (TableName × TableChange) := do
  let (table, rest) ← TableName.read? (← Definition.after? ["ALTER", "TABLE"] ls)
  return (table, .rename (← renames? (← Definition.after? ["RENAME"] rest)))

/-- A definition that changes the columns of a table. -/
def ofDefinition? : Definition → Option (TableName × TableChange)
  | .addColumns table columns => some (table, .add columns)
  | .dropColumns table names => some (table, .drop names)
  | _ => none

/-- The table that a statement changes, and what it changes. -/
def read? (ls : List Lexeme) : Option (TableName × TableChange) :=
  match Definition.read? ls with
  | some d => ofDefinition? d
  | none => readRename? ls

/-- The changes that a text makes, one for each statement. -/
def ofText? (text : String) : Option (List (TableName × TableChange)) :=
  (((Lexeme.all text.toList).splitOn (.mark ';')).filter (· ≠ [])).mapM read?

theorem ofText?_sequenceCql {texts : List String} {changes : List (TableName × TableChange)}
    (h : List.Forall₂ (Definition.SpellsBy read?) texts changes) (hne : texts ≠ []) :
  ofText? (sequenceCql texts) = some changes
  := by
  obtain ⟨lss, hlexes, hmarks, hreads⟩ := Definition.exists_lexemes rfl h
  have hlss : lss ≠ [] := by
    rintro rfl
    cases hlexes
    cases hne rfl
  obtain ⟨tail, htail, hall⟩ := Definition.all_sequenceCql hlexes hne
  rw [ofText?, hall, Definition.filter_splitOn_intercalate tail htail hlss hmarks, hreads]

/-! ### Statements of each kind -/

theorem spells_of_definition {text : String} {d : Definition} {p : TableName × TableChange}
    (h : Definition.Spells text d) (hp : ofDefinition? d = some p) :
  Definition.SpellsBy read? text p
  := by
  obtain ⟨ls, hlexes, hmark, hread⟩ := h
  use ls, hlexes, hmark
  rw [read?, hread]
  apply hp

/-- How a column is renamed in CQL. -/
def renameCql (names : String × String) : String :=
  Cql.quoteIdentifier names.1 ++ " TO " ++ Cql.quoteIdentifier names.2

/-- Names as the store has them. -/
def storedNames (names : String × String) : String × String :=
  (Cql.storedName names.1, Cql.storedName names.2)

/-- The lexemes of a column that is renamed. -/
def renameLexemes (names : String × String) : List Lexeme :=
  [Lexeme.ofName names.1] ++ ([.word "TO"] ++ [Lexeme.ofName names.2])

theorem lexesTo_renameCql (names : String × String) :
  Lexeme.LexesTo (renameCql names).toList (renameLexemes names)
  := by
  have hto : Lexeme.Separates " TO ".toList [.word "TO"] := ⟨fun _ => rfl, fun _ => rfl⟩
  rw [renameCql, String.toList_append, String.toList_append, List.append_assoc]
  apply (Lexeme.lexesTo_quoteIdentifier _).join hto (Lexeme.lexesTo_quoteIdentifier _)

theorem renames?_lexemes {renames : List (String × String)} (hne : renames ≠ []) :
  renames? ([.word "AND"].intercalate (renames.map renameLexemes))
    = some (renames.map storedNames)
  := by
  induction renames with
  | nil => cases hne rfl
  | cons names renames ih =>
    cases renames with
    | nil => simp [renameLexemes, renames?, storedNames]
    | cons names' renames =>
      rw [List.map_cons, List.map_cons, List.intercalate_cons_cons, ← List.map_cons]
      simp only [renameLexemes, List.cons_append, List.nil_append]
      rw [renames?, if_pos ⟨rfl, rfl⟩, ih (List.cons_ne_nil _ _)]
      simp [storedNames]

theorem not_mem_renameLexemes (names : String × String) :
  .mark ';' ∉ renameLexemes names
  := by
  simp [renameLexemes, (Lexeme.ofName_ne_mark _ _).symm]

theorem spells_rename (table : TableName) {renames : List (String × String)} (hne : renames ≠ []) :
  Definition.SpellsBy read?
    ("ALTER TABLE " ++ table.cql ++ " RENAME "
      ++ String.intercalate " AND " (renames.map renameCql))
    (table.stored, .rename (renames.map storedNames))
  := by
  have hand : Lexeme.Separates " AND ".toList [.word "AND"] := ⟨fun _ => rfl, fun _ => rfl⟩
  have hrename : Lexeme.Separates " RENAME ".toList [.word "RENAME"] :=
    ⟨fun _ => rfl, fun _ => rfl⟩
  have hparts : List.Forall₂ (fun text ls => Lexeme.LexesTo text.toList ls)
      (renames.map renameCql) (renames.map renameLexemes) := by
    rw [List.forall₂_map_left_iff, List.forall₂_map_right_iff, List.forall₂_same]
    intro names _
    apply lexesTo_renameCql
  apply Definition.spellsBy_alteration table hrename (Lexeme.lexesTo_intercalate hand hparts)
  · apply Definition.not_mem_intercalate (by simp)
    rw [List.forall_mem_map]
    intro names _
    apply not_mem_renameLexemes
  · intro hread
    rw [read?, Definition.read?]
    simp [Definition.after?, Definition.readAlteration?, readRename?, hread, renames?_lexemes hne]

end TableChange

/-! ### Alterations -/

namespace Alterations

open TableChange

/-- The parts of alterations spell the parts of changes. -/
structure Spell (a : Alterations) (cs : List TableChange) : Prop where
  adds : ∃ columns : List Column,
    a.adds = columns.map Column.declaration ∧ allAdded cs = columns.map Column.stored
  drops : ∃ names : List String,
    a.drops = names.map Cql.quoteIdentifier ∧ allDropped cs = names.map Cql.storedName
  renames : ∃ renames : List (String × String),
    a.renames = renames.map renameCql ∧ allRenamed cs = renames.map storedNames

variable {table : TableName} {a b : Alterations} {cs : List TableChange}

theorem spell_add {spec : AlterSpec} (ha : a.Spell cs) (h : (a.add table spec).Yields b) :
  ∃ c, spec.change? = some c ∧ b.Spell (cs ++ [c])
  := by
  obtain ⟨⟨columns, hadds, hadded⟩, ⟨names, hdrops, hdropped⟩, ⟨renames, hrenames, hrenamed⟩⟩ := ha
  unfold add at h
  split at h
  next haction =>
    simp only [Draft.yields_bind, Draft.yields_pure, Column.yields_cql] at h
    obtain ⟨-, -, -, rfl, rfl⟩ := h
    use .add [spec.column.stored]
    simp only [AlterSpec.change?, haction, true_and]
    constructor
    · use columns ++ [spec.column]
      simp [hadds, allAdded, added, ← hadded]
    · use names, hdrops
      simp [allDropped, dropped, ← hdropped]
    · use renames, hrenames
      simp [allRenamed, renamed, ← hrenamed]
  next haction =>
    simp only [Draft.yields_bind, Draft.yields_pure] at h
    obtain ⟨-, -, rfl⟩ := h
    use .drop [Cql.storedName spec.columnName]
    simp only [AlterSpec.change?, haction, true_and]
    constructor
    · use columns, hadds
      simp [allAdded, added, ← hadded]
    · use names ++ [spec.columnName]
      simp [hdrops, allDropped, dropped, ← hdropped]
    · use renames, hrenames
      simp [allRenamed, renamed, ← hrenamed]
  next haction =>
    simp only [Draft.yields_bind, Draft.yields_pure] at h
    obtain ⟨-, -, -, -, rfl⟩ := h
    use .rename [storedNames (spec.oldName, spec.newName)]
    simp only [AlterSpec.change?, haction, storedNames, true_and]
    constructor
    · use columns, hadds
      simp [allAdded, added, ← hadded]
    · use names, hdrops
      simp [allDropped, dropped, ← hdropped]
    · use renames ++ [(spec.oldName, spec.newName)]
      simp [hrenames, renameCql, storedNames, allRenamed, renamed, ← hrenamed]
  next => cases Draft.yields_reject _ _ h
  next => cases Draft.yields_reject _ _ h
  next => cases Draft.yields_reject _ _ h
  next => cases Draft.yields_reject _ _ h

theorem spell_addAll {specs : List AlterSpec} (ha : a.Spell cs)
    (h : (addAll table a specs).Yields b) :
  ∃ ds, specs.mapM AlterSpec.change? = some ds ∧ b.Spell (cs ++ ds)
  := by
  induction specs generalizing a cs with
  | nil =>
    obtain rfl := (Draft.yields_pure _ _).mp h
    use [], rfl
    rwa [List.append_nil]
  | cons spec specs ih =>
    obtain ⟨a', ha', hb⟩ := (Draft.yields_bind _ _ _).mp h
    obtain ⟨c, hc, hspell⟩ := spell_add ha ha'
    obtain ⟨ds, hds, hspell⟩ := ih hspell hb
    use c :: ds
    constructor
    · simp [hc, hds]
    · rwa [List.append_cons]

/-- The statements that alterations come to make the changes gathered by kind. -/
theorem spells_statements (ha : a.Spell cs) :
  List.Forall₂ (Definition.SpellsBy read?) (a.statements table)
    ((TableChange.gathered cs).map (table.stored, ·))
  := by
  obtain ⟨⟨columns, hadds, hadded⟩, ⟨names, hdrops, hdropped⟩, ⟨renames, hrenames, hrenamed⟩⟩ := ha
  rw [statements, TableChange.gathered, hadds, hadded, hdrops, hdropped, hrenames, hrenamed,
    List.map_append, List.map_append]
  simp only [List.isEmpty_map, List.isEmpty_iff, List.map_eq_nil_iff]
  apply List.rel_append
  apply List.rel_append
  · split
    next => apply List.Forall₂.nil
    next hne =>
      apply List.Forall₂.cons _ .nil
      apply spells_of_definition (Definition.spells_addColumns table hne) rfl
  · split
    next => apply List.Forall₂.nil
    next hne =>
      apply List.Forall₂.cons _ .nil
      apply spells_of_definition (Definition.spells_dropColumns table hne) rfl
  · split
    next => apply List.Forall₂.nil
    next hne =>
      apply List.Forall₂.cons _ .nil
      apply spells_rename table hne

end Alterations

namespace AlterTable

open TableChange

variable {options : RenderingOptions} {s : AlterTable} {r : Rendering}

/-- The text of a statement that alters a table makes the changes that its alterations ask for,
gathered by kind. -/
theorem changes_of_rendering (hr : (Statement.alterTable s).render options = .ok r) :
  ∃ cs, (s.specs.getD []).mapM AlterSpec.change? = some cs
    ∧ ofText? r.text = some ((TableChange.gathered cs).map (s.table.stored, ·))
  := by
  obtain ⟨d, hd, hyields⟩ := Statement.RendersAs.yields ⟨r, hr, rfl⟩
  cases hd
  obtain ⟨a, ha, hne, -, htext⟩ := @statements_of_yields (fun _ => True) r.text s hyields
  have hnone : Alterations.Spell {} [] := ⟨⟨[], rfl, rfl⟩, ⟨[], rfl, rfl⟩, ⟨[], rfl, rfl⟩⟩
  obtain ⟨cs, hcs, hspell⟩ := Alterations.spell_addAll hnone ha
  rw [List.nil_append] at hspell
  use cs, hcs
  rw [htext]
  apply ofText?_sequenceCql (Alterations.spells_statements hspell) hne

/-- The statements for the alterations of a table have the same effect as the alterations one after
another, on any columns, if changes to one column are in order. They can be performed where the
alterations can only if changes to one column are in order, but for columns that are replaced. -/
theorem effect_of_rendering (hr : (Statement.alterTable s).render options = .ok r) :
  ∃ written emitted, (s.specs.getD []).mapM AlterSpec.change? = some written
    ∧ ofText? r.text = some (emitted.map (s.table.stored, ·))
    ∧ (InOrder written → ∀ columns, effectAll? columns emitted = effectAll? columns written)
    ∧ ∀ columns columns' columns'', effectAll? columns written = some columns'
      → effectAll? columns emitted = some columns''
      → written.Pairwise fun c d =>
        ∀ x ∈ c.names, x ∈ d.names → c.rank < d.rank ∨ IsReplaced written x
  := by
  obtain ⟨written, hwritten, htext⟩ := changes_of_rendering hr
  use written, TableChange.gathered written, hwritten, htext
  constructor
  · intro horder columns
    rw [effectAll?_gathered, effectAll?_of_inOrder horder]
  · intro columns columns' columns'' hcolumns hcolumns'
    apply pairwise_rank_lt hcolumns hcolumns'

/-- A column is added and dropped, and other ones are renamed and added in between:
`ALTER TABLE users ADD draft int, RENAME id TO user_id, DROP draft, ADD "first name" text`. -/
def userAlterations : AlterTable where
  table := ⟨"", "users"⟩
  specs := some
    [{ action := "add", column := { name := "draft", sourceType := "int" } },
      { action := "rename", oldName := "id", newName := "user_id" },
      { action := "drop", column := { name := "draft" } },
      { action := "add", column := { name := "first name", sourceType := "text" } }]

theorem effect_of_userAlterations :
  ∃ r written emitted, (Statement.alterTable userAlterations).render {} = .ok r
    ∧ (userAlterations.specs.getD []).mapM AlterSpec.change? = some written
    ∧ ofText? r.text = some (emitted.map (userAlterations.table.stored, ·))
    ∧ InOrder written
    ∧ ∀ columns, effectAll? columns emitted = effectAll? columns written
  := by
  have hrender : (Statement.alterTable userAlterations).render {}
      = .ok ⟨"ALTER TABLE users ADD (draft int, \"first name\" text);\n"
          ++ "ALTER TABLE users DROP draft;\nALTER TABLE users RENAME id TO user_id;",
        [Warning.text (.keyRename "id")]⟩ := by
    rfl
  obtain ⟨written, emitted, hwritten, hemitted, heffect, -⟩ := effect_of_rendering hrender
  have horder : InOrder written := by
    cases hwritten
    decide
  exact ⟨_, written, emitted, hrender, hwritten, hemitted, horder, heffect horder⟩

/-- A column is dropped and added with another type: `ALTER TABLE t DROP a, ADD a text`. -/
def retyping : AlterTable where
  table := ⟨"", "t"⟩
  specs := some
    [{ action := "drop", column := { name := "a" } },
      { action := "add", column := { name := "a", sourceType := "text" } }]

/-- The column is to be added while it is still there. -/
theorem effect_of_retyping :
  (Statement.alterTable retyping).render {}
      = .ok ⟨"ALTER TABLE t ADD a text;\nALTER TABLE t DROP a;", []⟩
    ∧ ((retyping.specs.getD []).mapM AlterSpec.change?).bind (effectAll? [("a", .scalar .int)])
      = some [("a", .scalar .text)]
    ∧ (ofText? "ALTER TABLE t ADD a text;\nALTER TABLE t DROP a;").bind
        (fun emitted => effectAll? [("a", .scalar .int)] (emitted.map (·.2)))
      = none
  := by
  constructor
  · decide
  · constructor <;> decide

end AlterTable

end CqlGateway

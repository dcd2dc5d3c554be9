import CqlGateway.Proofs.Cql.Outcome

/-!
# What is told in one line

Warnings and rejections are fixed words with texts of the statement put into them. Texts that are
quoted come in one line whatever they hold, so a warning or a rejection is told in one line if the
texts are that are put into it as they are.

What a draft tells is then a matter of its parts: whatever holds of the texts that the parts of a
draft tell holds of those that the draft tells.
-/

namespace CqlGateway

variable {r : Rejection} {table : TableName}

/-! ### Lines -/

/-- A text without line breaks. -/
def IsOneLine (s : String) : Prop :=
  '\n' ∉ s.toList

instance : DecidablePred IsOneLine :=
  fun s => inferInstanceAs (Decidable ('\n' ∉ s.toList))

namespace IsOneLine

variable {s t : String}

theorem ofList {cs : List Char} (h : '\n' ∉ cs) :
  IsOneLine (String.ofList cs)
  := by
  rwa [IsOneLine, String.toList_ofList]

theorem empty :
  IsOneLine ""
  := by decide

theorem append_iff :
  IsOneLine (s ++ t) ↔ IsOneLine s ∧ IsOneLine t
  := by
  rw [IsOneLine, String.toList_append, List.mem_append, not_or]
  rfl

theorem append (hs : IsOneLine s) (ht : IsOneLine t) :
  IsOneLine (s ++ t)
  := append_iff.mpr ⟨hs, ht⟩

theorem withoutMarks (hs : IsOneLine s) :
  IsOneLine (Failure.withoutMarks s)
  := by
  apply ofList
  intro hmem
  obtain ⟨c, hc, heq⟩ := List.mem_map.mp hmem
  split at heq
  · cases heq
  · exact hs (heq ▸ hc)

end IsOneLine

namespace Text

theorem hexDigit_ne_newline (n : Nat) :
  hexDigit (n % 16) ≠ '\n'
  := by
  have hdigits : ∀ k < 16, hexDigit k ≠ '\n' := by decide
  exact hdigits _ (Nat.mod_lt n (by decide))

theorem newline_not_mem_hex (width n : Nat) :
  '\n' ∉ hex width n
  := by
  induction width with
  | zero => apply List.not_mem_nil
  | succ width ih =>
    rw [hex, List.mem_cons, not_or]
    exact ⟨(hexDigit_ne_newline _).symm, ih⟩

theorem escapeLetter?_ne_newline (c : Char) :
  escapeLetter? c ≠ some '\n'
  := by
  unfold escapeLetter?
  split <;> decide

theorem newline_not_mem_quoteChar (c : Char) :
  '\n' ∉ quoteChar c
  := by
  by_cases hc : c = '\n'
  · rw [hc]
    decide
  · have hne := Ne.symm hc
    have hletter := escapeLetter?_ne_newline c
    unfold quoteChar
    split
    · simp [hne]
    · split
      · simpa using hne
      · split
        next letter heq =>
          rw [heq] at hletter
          simpa [eq_comm] using hletter
        next =>
          split
          · simpa using newline_not_mem_hex 2 c.toNat
          · split
            · simpa using newline_not_mem_hex 4 c.toNat
            · simpa using newline_not_mem_hex 8 c.toNat

theorem isOneLine_quote (s : String) :
  IsOneLine (quote s)
  := by
  apply IsOneLine.ofList
  have hinside : '\n' ∉ s.toList.flatMap quoteChar := by
    intro hmem
    obtain ⟨c, -, hc⟩ := List.mem_flatMap.mp hmem
    exact newline_not_mem_quoteChar c hc
  simpa using hinside

end Text

theorem Cql.ColumnType.isOneLine_cql (t : ColumnType) :
  IsOneLine t.cql
  := by
  induction t with
  | scalar type => cases type <;> exact .ofList (by decide)
  | list element ih =>
    exact (IsOneLine.append (.ofList (by decide)) ih).append (.ofList (by decide))

theorem TableName.isOneLine_dotted {t : TableName} (hkeyspace : IsOneLine t.keyspace)
    (hname : IsOneLine t.name) :
  IsOneLine t.dotted
  := by
  unfold dotted
  split
  · exact hname
  · exact (hkeyspace.append (.ofList (by decide))).append hname

/-! ### Warnings and rejections -/

/-- The texts that are put into the words of a warning as they are. -/
def Warning.inserts : Warning → List String
  | .approximated text => [text]
  | .unmappedAggregate name | .unmappedFunction name | .distinctArgument name
  | .setOperation name => [name]
  | .unusableLimit default => [toString default]
  | .joinedSource kept | .furtherSources kept | .singleColumnIndex kept => [kept]
  | .ignoredOptions names => [names]
  | .functionalIndex column | .defaultValue column | .autoIncrement column | .keyRename column
  | .assumedViewKey column => [column]
  | .assumedKey table column => [table, column]
  | .unknownType column _ target => [column, target]
  | .expandedRows count => [toString count]
  | .mutationOrder statement | .mutationLimit statement => [statement]
  | .orPredicate | .distinctRows | .groupBy | .having | .unvalidatedOrder | .offset | .uniqueIndex
  | .partialIndex | .includedColumns | .indexOrder | .viewAggregation | .viewOrder
  | .viewReplacement => []

theorem Warning.isOneLine_text {w : Warning} (h : ∀ s ∈ w.inserts, IsOneLine s) :
  IsOneLine w.text
  := by
  cases w <;> dsimp only [text] <;> dsimp only [inserts] at h <;>
    (try simp only [IsOneLine.append_iff, Text.isOneLine_quote, and_true]) <;> and_intros <;>
    first
    | (refine h _ ?_; simp; done)
    | exact .ofList (by decide)

/-- The texts that are put into the words of a rejection as they are. -/
def Rejection.inserts : Rejection → List String
  | .nodeOfType typeName | .unknownValueList typeName => [typeName]
  | .missingOperand operator | .unmappedOperator operator | .existsPredicate operator => [operator]
  | .noRows table | .unnamedAssignment table | .undeclaredKeyColumn _ table | .renamedTable table
  | .noIndexColumn table | .noColumns table | .noPrimaryKey table | .noAlterations table
  | .noColumnList table | .noAssignments table => [table]
  | .rowWidth row table values columns =>
    [toString row, table, toString values, toString columns]
  | .joinedMutation statement | .manySources statement | .unnamed statement | .noSource statement
  | .noTarget statement => [statement]
  | .retypedColumn column => [column]
  | .noFilter statement table => [statement, table]
  | .noDefinition view => [view]
  | .unknownNodeType _ | .missingExpression | .unknownTermKind _ | .unnamedColumnReference
  | .wrongBounds | .unknownAlteration _ | .unknownOperator _ | .unknownUnaryOperator _
  | .negatedPredicate | .subqueryExpression | .subquerySource | .insertedQuery | .noIndexTable
  | .emptyIndexElement | .indexWithoutColumn | .incompleteRename | .unresolvedIndexName => []

theorem Rejection.isOneLine_message (h : ∀ s ∈ r.inserts, IsOneLine s) :
  IsOneLine r.message
  := by
  cases r <;> dsimp only [message] <;> dsimp only [inserts] at h <;>
    (try simp only [IsOneLine.append_iff, Text.isOneLine_quote, and_true]) <;> and_intros <;>
    first
    | (refine h _ ?_; simp; done)
    | exact .ofList (by decide)

theorem Rejection.isOneLine_hint {hint : String} (h : r.hint? = some hint) :
  IsOneLine hint
  := by
  cases r <;> cases h <;> exact .ofList (by decide)

theorem Rejection.isOneLine_diagnostic (h : ∀ s ∈ r.inserts, IsOneLine s) :
  IsOneLine r.failure.diagnostic
  := by
  have hmessage : IsOneLine (Failure.withoutMarks r.message) := (isOneLine_message h).withoutMarks
  unfold failure
  dsimp only
  split
  next hint hhint =>
    have hhint := isOneLine_hint hhint
    unfold Failure.diagnostic
    split
    · exact hmessage
    · have hhints : (Failure.hinted hint
          (.marked r.category (.plain r.message))).hintText = hint := by
        by_cases hempty : hint = "" <;> simp [Failure.hintText, Failure.hints, hempty]
      rw [hhints]
      exact ((hmessage.append (.ofList (by decide))).append hhint).append (.ofList (by decide))
  next => exact hmessage

/-! ### What drafts tell -/

namespace Draft

variable {α β : Type} {P : String → Prop}

/-- Whether a property holds of all texts that are put into the warnings of a draft, or into its
rejection. -/
def Tells (P : String → Prop) (d : Draft α) : Prop :=
  match d with
  | .error r => ∀ s ∈ r.inserts, P s
  | .ok (_, ws) => ∀ w ∈ ws, ∀ s ∈ w.inserts, P s

theorem tells_pure (a : α) :
  (pure a : Draft α).Tells P
  := List.forall_mem_nil _

theorem tells_warn {w : Warning} (h : ∀ s ∈ w.inserts, P s) :
  (warn w).Tells P
  := List.forall_mem_singleton.mpr h

theorem tells_warnIf {w : Warning} (h : ∀ s ∈ w.inserts, P s) (condition : Bool) :
  (warnIf condition w).Tells P
  := by
  cases condition
  · exact tells_pure ()
  · exact tells_warn h

theorem tells_reject (h : ∀ s ∈ r.inserts, P s) :
  (reject r : Draft α).Tells P
  := h

theorem tells_rejectIf (h : ∀ s ∈ r.inserts, P s) (condition : Bool) :
  (rejectIf condition r).Tells P
  := by
  cases condition
  · exact tells_pure ()
  · exact tells_reject h

theorem Tells.bind {d : Draft α} {f : α → Draft β} (hd : d.Tells P) (hf : ∀ a, (f a).Tells P) :
  (d >>= f).Tells P
  := by
  rcases d with r | ⟨a, ws⟩
  · exact hd
  · have hfa := hf a
    change (Draft.bind _ f).Tells P
    unfold Draft.bind
    dsimp only
    cases hresult : f a with
    | error r =>
      rw [hresult] at hfa
      exact hfa
    | ok p =>
      rw [hresult] at hfa
      intro w hw
      rcases List.mem_append.mp hw with hw | hw
      · exact hd w hw
      · exact hfa w hw

theorem tells_each {f : α → Draft β} {as : List α} (h : ∀ a ∈ as, (f a).Tells P) :
  (each f as).Tells P
  := by
  induction as with
  | nil => exact tells_pure []
  | cons a as ih =>
    rw [List.forall_mem_cons] at h
    apply h.1.bind
    intro b
    apply (ih h.2).bind
    intro bs
    apply tells_pure

end Draft

open Draft (Tells tells_each tells_pure tells_reject tells_rejectIf tells_warn tells_warnIf)

/-! ### Statements that define a schema -/

theorem CreateKeyspace.tells_cql {replication : Replication} {s : CreateKeyspace}
    (hoptions : s.options = []) :
  (s.cql replication).Tells IsOneLine
  := by
  unfold cql
  refine (tells_rejectIf ?_ _).bind fun _ => Tells.bind ?_ fun _ => tells_pure _
  · exact List.forall_mem_singleton.mpr (.ofList (by decide))
  · rw [hoptions]
    exact tells_pure ()

theorem Column.tells_cql {c : Column} (hname : IsOneLine c.name) :
  c.cql.Tells IsOneLine
  := by
  unfold Column.cql
  dsimp only
  refine (tells_warnIf ?_ _).bind fun _ => (tells_warnIf ?_ _).bind fun _ =>
    (tells_warnIf ?_ _).bind fun _ => tells_pure _
  · simpa [Warning.inserts] using ⟨hname, Cql.ColumnType.isOneLine_cql _⟩
  · simpa [Warning.inserts] using hname
  · simpa [Warning.inserts] using hname

theorem keyColumn_tells (htable : IsOneLine table.dotted) (columns : List Column) (name : String) :
  (keyColumn table columns name).Tells IsOneLine
  := by
  unfold keyColumn
  split
  · exact tells_pure _
  · apply tells_reject
    simpa [Rejection.inserts] using htable

theorem CreateTable.tells_key {s : CreateTable} {columns : List Column}
    (htable : IsOneLine s.table.dotted) (hcolumns : ∀ c ∈ columns, IsOneLine c.name) :
  (s.key columns).Tells IsOneLine
  := by
  unfold key
  split
  · exact tells_each fun name _ => keyColumn_tells htable columns name
  · split
    · split
      next c hfind =>
        have hc : c ∈ columns := List.mem_of_find?_eq_some hfind
        refine (tells_warn ?_).bind fun _ => tells_pure _
        simpa [Warning.inserts] using ⟨htable, hcolumns c hc⟩
      next =>
        apply tells_reject
        simpa [Rejection.inserts] using htable
    · exact tells_pure _

theorem CreateTable.tells_cql {s : CreateTable} (htable : IsOneLine s.table.dotted)
    (hcolumns : ∀ c ∈ s.columns.getD [], IsOneLine c.name) :
  s.cql.Tells IsOneLine
  := by
  unfold cql
  refine (tells_rejectIf ?_ _).bind fun _ => (tells_rejectIf ?_ _).bind fun _ =>
    (tells_key htable hcolumns).bind fun _ =>
      (tells_each fun c hc => Column.tells_cql (hcolumns c hc)).bind fun _ =>
        tells_pure _
  · exact List.forall_mem_singleton.mpr (.ofList (by decide))
  · simpa [Rejection.inserts] using htable

theorem AlterSpec.isOneLine_columnName {spec : AlterSpec} (hname : IsOneLine spec.column.name)
    (hold : IsOneLine spec.oldName) :
  IsOneLine spec.columnName
  := by
  unfold columnName
  split
  · exact hold
  · exact hname

theorem Alterations.tells_add (htable : IsOneLine table.dotted) (a : Alterations) {spec : AlterSpec}
    (hname : IsOneLine spec.column.name) (hold : IsOneLine spec.oldName) :
  (a.add table spec).Tells IsOneLine
  := by
  unfold add
  split
  · refine (tells_rejectIf ?_ _).bind fun _ =>
      (Column.tells_cql hname).bind fun _ => tells_pure _
    exact List.forall_mem_singleton.mpr (.ofList (by decide))
  · refine (tells_rejectIf ?_ _).bind fun _ => tells_pure _
    exact List.forall_mem_singleton.mpr (.ofList (by decide))
  · refine (tells_rejectIf (List.forall_mem_nil _) _).bind fun _ =>
      (tells_warn ?_).bind fun _ => tells_pure _
    exact List.forall_mem_singleton.mpr hold
  · exact tells_reject (List.forall_mem_singleton.mpr
      (AlterSpec.isOneLine_columnName hname hold))
  · exact tells_reject (List.forall_mem_singleton.mpr
      (AlterSpec.isOneLine_columnName hname hold))
  · exact tells_reject (List.forall_mem_singleton.mpr htable)
  · exact tells_reject (List.forall_mem_nil _)

theorem Alterations.tells_addAll (htable : IsOneLine table.dotted) (a : Alterations)
    {specs : List AlterSpec}
    (hspecs : ∀ spec ∈ specs, IsOneLine spec.column.name ∧ IsOneLine spec.oldName) :
  (addAll table a specs).Tells IsOneLine
  := by
  induction specs generalizing a with
  | nil => exact tells_pure _
  | cons spec specs ih =>
    rw [List.forall_mem_cons] at hspecs
    exact (tells_add htable a hspecs.1.1 hspecs.1.2).bind fun b => ih b hspecs.2

theorem AlterTable.tells_cql {s : AlterTable} (htable : IsOneLine s.table.dotted)
    (hspecs : ∀ spec ∈ s.specs.getD [], IsOneLine spec.column.name ∧ IsOneLine spec.oldName) :
  s.cql.Tells IsOneLine
  := by
  unfold cql
  refine (tells_rejectIf ?_ _).bind fun _ => (tells_rejectIf ?_ _).bind fun _ =>
    (Alterations.tells_addAll htable _ hspecs).bind fun _ => tells_pure _
  · exact List.forall_mem_singleton.mpr (.ofList (by decide))
  · exact List.forall_mem_singleton.mpr htable

theorem DropTable.tells_cql (s : DropTable) :
  s.cql.Tells IsOneLine
  := by
  have hfixed : ∀ t ∈ (Rejection.unnamed "DROP TABLE").inserts, IsOneLine t :=
    List.forall_mem_singleton.mpr (.ofList (by decide))
  unfold cql
  refine (tells_rejectIf hfixed _).bind fun _ =>
    (tells_each fun table _ => ?_).bind fun _ => tells_pure _
  exact (tells_rejectIf hfixed _).bind fun _ => tells_pure _

theorem IndexColumn.isOneLine_label {c : IndexColumn} (hname : IsOneLine c.name)
    (hexpr : c.expr = .missing) :
  IsOneLine c.label
  := by
  unfold label
  rw [hexpr]
  split
  · exact hname
  · exact .ofList (by decide)

theorem IndexColumn.tells_resolve {c : IndexColumn} (hexpr : c.expr = .missing) :
  c.resolve.Tells IsOneLine
  := by
  unfold resolve
  rw [hexpr]
  refine (tells_warnIf (List.forall_mem_nil _) _).bind fun _ => ?_
  split
  · exact tells_pure _
  · exact tells_reject (List.forall_mem_nil _)

theorem CreateIndex.tells_cql {s : CreateIndex} (htable : IsOneLine s.table.dotted)
    (hcolumns : ∀ c ∈ s.columns.getD [], IsOneLine c.name ∧ c.expr = .missing) :
  s.cql.Tells IsOneLine
  := by
  unfold cql
  refine (tells_rejectIf (List.forall_mem_nil _) _).bind fun _ => ?_
  split
  · exact tells_reject (List.forall_mem_singleton.mpr htable)
  next first rest hfirst =>
    obtain ⟨hname, hexpr⟩ := hcolumns first (by rw [hfirst]; apply List.mem_cons_self)
    refine (tells_warnIf (List.forall_mem_nil _) _).bind fun _ =>
      (tells_warnIf ?_ _).bind fun _ =>
        (tells_warnIf (List.forall_mem_nil _) _).bind fun _ =>
          (tells_warnIf (List.forall_mem_nil _) _).bind fun _ =>
            (IndexColumn.tells_resolve hexpr).bind fun _ => tells_pure _
    exact List.forall_mem_singleton.mpr (IndexColumn.isOneLine_label hname hexpr)

theorem DropIndex.tells_cql (s : DropIndex) :
  s.cql.Tells IsOneLine
  := by
  unfold cql
  refine Tells.bind ?_ fun _ => tells_pure _
  unfold resolveIndexName
  split
  · exact tells_pure _
  · exact tells_reject (List.forall_mem_nil _)

/-- If the draft of a statement tells lines, so does its rendering, or the failure of it. -/
theorem Statement.isOneLine_of_tells {options : RenderingOptions} {s : Statement}
    {d : Draft String} (hd : s.normalize.family.draft? options s.normalize = some d)
    (htells : d.Tells IsOneLine) :
  (∀ r, s.render options = .ok r → ∀ w ∈ r.warnings, IsOneLine w)
    ∧ ∀ f, s.render options = .error f → IsOneLine f.diagnostic
  := by
  rcases render_of_draft hd with ⟨reason, rfl, hrender⟩ | ⟨text, warnings, rfl, -, hrender⟩ <;>
    rw [hrender]
  · refine ⟨nofun, ?_⟩
    rintro f ⟨⟩
    exact Rejection.isOneLine_diagnostic htells
  · refine ⟨?_, nofun⟩
    rintro r ⟨⟩ w hw
    obtain ⟨warning, hmem, rfl⟩ := List.mem_map.mp (mem_of_mem_distinctTexts hw)
    exact Warning.isOneLine_text (htells warning hmem)

end CqlGateway

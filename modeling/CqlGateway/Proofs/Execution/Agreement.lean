import CqlGateway.Proofs.Cql.Parts

/-!
# Rendering and execution agree

The text of a rendering is split into the statements that it is made of. So a store that accepts
every call is handed exactly these statements: as a batch for an insertion of several rows, and
one by one otherwise.
-/

namespace CqlGateway

open Execution
open Cql (Phrase)

variable {parts : List String} {op : Operation}

/-! ### Clauses as statements -/

theorem Operation.leadsOut_verb (op : Operation) :
  leadsOut op.verb.toList = true
  := by
  cases op <;> decide

theorem Operation.startsSolid_verb (op : Operation) :
  Text.startsSolid op.verb.toList = true
  := by
  cases op <;> decide

theorem Operation.endsSolid_verb (op : Operation) :
  Text.endsSolid op.verb.toList = true
  := by
  cases op <;> decide

/-- A clause without comments is read as it stands. -/
theorem Clause.reads {text : String} {raw : String → Prop}
    (hclosed : ∀ s, raw s → Closed false s.toList)
    (hends : ∀ s, raw s → Text.endsSolid s.toList = true) (h : Clause raw op.verb text) :
  Reads text.toList text.toList
  := by
  obtain ⟨rest, hrest⟩ := h.opens
  apply Closed.reads (h.phrase.closed hclosed) _ (h.phrase.endsSolid hends)
  rw [hrest, String.toList_append]
  apply Text.startsSolid_append op.startsSolid_verb

/-- A clause is read as a statement that begins with its verb. -/
theorem Clause.reads_verb {text : String} {raw : String → Prop}
    (hclosed : ∀ s, raw s → Closed true s.toList) (h : Clause raw op.verb text) :
  ∃ statement, Reads text.toList statement ∧ op.verb.toList <+: statement
  := by
  have hphrase := h.phrase.closed hclosed
  obtain ⟨rest, hrest⟩ := h.opens
  rw [hrest, String.toList_append] at hphrase ⊢
  apply Closed.reads_append op.leadsOut_verb op.startsSolid_verb op.endsSolid_verb hphrase

theorem batchOf?_eq_none {first : List Char} (h : op.verb.toList <+: first)
    (rest : List (List Char)) :
  batchOf? (first :: rest) = none
  := by
  obtain ⟨cs, rfl⟩ := h
  have hbegin : afterBegin? (op.verb.toList ++ cs) = none := by
    cases op <;> apply afterBegin?_eq_none (by decide)
  rw [batchOf?, hbegin, Option.map_none]

theorem isApply_insert {cs : List Char} (h : Operation.insert.verb.toList <+: cs) :
  isApply cs = false
  := by
  obtain ⟨rest, rfl⟩ := h
  apply isApply_eq_false (by decide)

/-! ### Texts of several statements -/

theorem statementChars_sequenceCql {statements : List (List Char)}
    (h : List.Forall₂ Reads (parts.map String.toList) statements) (hne : parts ≠ []) :
  statementChars (sequenceCql parts).toList = statements
  := by
  unfold sequenceCql
  split
  next part =>
    cases h with
    | cons hpart hrest =>
      cases hrest
      apply hpart.statementChars
  next =>
    rw [String.toList_append, String.toList_intercalate]
    apply statementChars_intercalate h (by simpa using hne)

theorem batchOf?_batchCql {statements : List (List Char)}
    (h : List.Forall₂ Reads (parts.map String.toList) statements) (hne : parts ≠ [])
    (hmarks : ∀ cs ∈ statements, isApply cs = false) :
  batchOf? (statementChars (Insert.batchCql parts).toList) = some (.ok statements)
  := by
  have hcomment (rest : List Char) : pieces .plain [] (Insert.batchDisclaimer.toList ++ '\n' :: rest)
      = pieces .plain ['\n'] rest := by
    rw [Insert.batchDisclaimer, String.toList_ofList]
    rfl
  have htext : (Insert.batchCql parts).toList = Insert.batchDisclaimer.toList
      ++ "\nBEGIN BATCH\n".toList
      ++ (parts.map String.toList).flatMap (fun ds => "  ".toList ++ ds ++ ";\n".toList)
      ++ "APPLY BATCH;".toList := by
    simp [Insert.batchCql, String.toList_join, List.flatMap_map]
  cases parts with
  | nil => cases hne rfl
  | cons part parts =>
    cases h with
    | cons hfirst hrest =>
      rw [htext, List.map_cons, statementChars_batch hfirst hrest hcomment]
      apply batchOf?_batch hfirst.startsSolid hfirst.endsSolid hmarks

/-! ### Execution of renderings -/

theorem quoteText_eq {s : String} (h : '\x27' ∉ s.toList) :
  Cql.quoteText s = "'" ++ s ++ "'"
  := by
  have hdoubled : Cql.doubled '\x27' s.toList = s.toList := by
    unfold Cql.doubled
    generalize s.toList = cs at h
    induction cs with
    | nil => rfl
    | cons c cs ih =>
      rw [List.mem_cons, not_or] at h
      rw [List.flatMap_cons, ih h.2, if_neg (Ne.symm h.1), List.singleton_append]
  apply String.toList_inj.mp
  simp [Cql.quoteText, hdoubled]

/-- A replication whose strategy holds no quote is a phrase that copies nothing. -/
theorem Replication.phrase_cql {r : Replication} (h : '\x27' ∉ r.strategy.toList) :
  Phrase (fun _ => False) r.cql
  := by
  have hstrategy : '\x27' ∉ r.strategyOrDefault.toList := by
    unfold strategyOrDefault
    split
    · decide
    · apply h
  have hfactor : 0 ≤ r.factorOrDefault := by
    unfold factorOrDefault
    split <;> omega
  have hcopies : ∃ copies, Phrase (fun _ => False) copies
      ∧ r.cql = "\x7b'class': " ++ Cql.quoteText r.strategyOrDefault ++ ", " ++ copies ++ ": "
        ++ toString r.factorOrDefault ++ "\x7d" := by
    refine ⟨if r.strategyOrDefault = "NetworkTopologyStrategy" && r.dataCenter ≠ "" then
      Cql.quoteText r.dataCenter else "'replication_factor'", ?_, ?_⟩
    · split
      · apply Phrase.text
      · apply Phrase.text "replication_factor"
    · unfold Replication.cql
      rw [quoteText_eq hstrategy]
      apply String.toList_inj.mp
      simp
  obtain ⟨copies, hcopies, hcql⟩ := hcopies
  rw [hcql]
  apply Phrase.behind _ (by decide)
  apply Phrase.join _ (by decide) (.word (Cql.isWord_toString_of_nonneg hfactor))
  apply Phrase.join (.before (by decide) (.text _)) (by decide) hcopies

/-- The calls by which the statements that a rendering is made of are handed to a store: several
rows go as a batch, everything else goes statement by statement. -/
def Statement.storeCalls (s : Statement) (parts : List String) : List StoreCall :=
  match s, parts with
  | .insert _, _ :: _ :: _ => [.batch parts]
  | _, _ => parts.map .exec

/-- A rendering is a sequence of its parts, or a batch of them for an insertion. -/
theorem Statement.textOf_cases (s : Statement) (hne : parts ≠ []) :
  s.textOf parts = sequenceCql parts ∧ s.storeCalls parts = parts.map .exec
    ∨ s.operation = .insert ∧ s.textOf parts = Insert.batchCql parts
      ∧ s.storeCalls parts = [.batch parts]
  := by
  cases s with
  | insert s =>
    match parts with
    | [] => cases hne rfl
    | [part] => exact .inl ⟨rfl, rfl⟩
    | _ :: _ :: _ => exact .inr ⟨rfl, rfl, rfl⟩
  | _ => exact .inl ⟨rfl, rfl⟩

theorem execute_sequenceCql (hne : parts ≠ [])
    (hreads : ∀ part ∈ parts, Reads part.toList part.toList)
    (hverb : ∀ part ∈ parts, op.verb.toList <+: part.toList) {store : Store}
    (hstore : store.Accepting) (history : List StoreCall) :
  (execute store history (sequenceCql parts)).calls = parts.map .exec
    ∧ (execute store history (sequenceCql parts)).failure? = none
  := by
  have hsplit : statementChars (sequenceCql parts).toList = parts.map String.toList := by
    apply statementChars_sequenceCql _ hne
    rwa [List.forall₂_map_left_iff, List.forall₂_map_right_iff, List.forall₂_same]
  have hbatch : batchOf? (parts.map String.toList) = none := by
    cases parts with
    | nil => cases hne rfl
    | cons part parts => apply batchOf?_eq_none (hverb part List.mem_cons_self)
  have h := execute_statements hstore history hsplit (by simpa using hne) hbatch
  simpa [Function.comp_def] using h

theorem execute_batchCql (hne : parts ≠ []) (hreads : ∀ part ∈ parts, Reads part.toList part.toList)
    (hverb : ∀ part ∈ parts, Operation.insert.verb.toList <+: part.toList) {store : Store}
    (hstore : store.Accepting) (history : List StoreCall) :
  (execute store history (Insert.batchCql parts)).calls = [.batch parts]
    ∧ (execute store history (Insert.batchCql parts)).failure? = none
  := by
  have hbatch : batchOf? (statementChars (Insert.batchCql parts).toList)
      = some (.ok (parts.map String.toList)) := by
    apply batchOf?_batchCql _ hne
    · intro cs hcs
      obtain ⟨part, hpart, rfl⟩ := List.mem_map.mp hcs
      apply isApply_insert (hverb part hpart)
    · rwa [List.forall₂_map_left_iff, List.forall₂_map_right_iff, List.forall₂_same]
  have h := execute_batch hstore history hbatch
  simpa [Function.comp_def] using h

/-- A text that is closed, holds no comments and ends with a character other than a blank. -/
def IsSolid (s : String) : Prop :=
  Closed false s.toList ∧ Text.endsSolid s.toList = true

theorem IsSolid_of_isWord {s : String} (h : Cql.isWord s = true) :
  IsSolid s
  := by
  rw [Cql.isWord, Bool.and_eq_true] at h
  exact ⟨closed_of_leadsOut h.1, h.2⟩

/-- What the rendering of a statement of well-spelled terms copies is solid. -/
theorem Statement.IsSolid_of_copiedTexts {options : RenderingOptions} {s : Statement}
    (hstrategy : '\x27' ∉ options.replication.strategy.toList)
    (hspelled : ∀ e ∈ s.renderedExprs, ∀ t ∈ e.terms, t.isWellSpelled = true) :
  ∀ t ∈ s.copiedTexts options, IsSolid t
  := by
  have hreplication : IsSolid options.replication.cql := by
    have hphrase := Replication.phrase_cql hstrategy
    exact ⟨hphrase.closed (fun _ h => h.elim), hphrase.endsSolid (fun _ h => h.elim)⟩
  have hexprs : ∀ t ∈ s.renderedExprs.flatMap (·.copiedTexts), IsSolid t := by
    intro t ht
    obtain ⟨e, he, ht⟩ := List.mem_flatMap.mp ht
    apply IsSolid_of_isWord (Expr.isWord_of_isWellSpelled e (hspelled e he) t ht)
  unfold copiedTexts
  split
  · simpa using hreplication
  · simpa using hreplication
  · apply hexprs

/-- A store that accepts every call is handed exactly the statements that a rendering is made of:
the rows of an insertion of several rows at once, and everything else one by one. A rendering that
is made of one statement is that statement. -/
theorem execute_rendering
    {options : RenderingOptions} {s : Statement} {r : Rendering}
    (hstrategy : '\x27' ∉ options.replication.strategy.toList)
    (hspelled : ∀ e ∈ s.renderedExprs, ∀ t ∈ e.terms, t.isWellSpelled = true)
    (hr : s.render options = .ok r) {store : Store} (hstore : store.Accepting)
    (history : List StoreCall) :
  ∃ parts, s.IsMadeOf options r.text parts ∧ (∀ part, parts = [part] → part = r.text)
    ∧ (execute store history r.text).calls = s.storeCalls parts
    ∧ (execute store history r.text).failure? = none
  := by
  obtain ⟨parts, hmade, hne, hclauses, htext⟩ := Statement.exists_parts
    (Statement.IsSolid_of_copiedTexts hstrategy hspelled) ⟨r, hr, rfl⟩
  have hreads : ∀ part ∈ parts, Reads part.toList part.toList := by
    intro part hpart
    apply (hclauses part hpart).reads (fun _ h => h.1) (fun _ h => h.2)
  have hverb : ∀ part ∈ parts, s.operation.verb.toList <+: part.toList := by
    intro part hpart
    obtain ⟨rest, rfl⟩ := (hclauses part hpart).opens
    rw [String.toList_append]
    apply List.prefix_append
  refine ⟨parts, hmade, ?_, ?_⟩
  · rintro part rfl
    rw [htext]
    cases s <;> rfl
  · rw [htext]
    rcases s.textOf_cases hne with ⟨htextOf, hcalls⟩ | ⟨hop, htextOf, hcalls⟩
    · rw [htextOf, hcalls]
      apply execute_sequenceCql hne hreads hverb hstore
    · rw [hop] at hverb
      rw [htextOf, hcalls]
      apply execute_batchCql hne hreads hverb hstore

/-- An insertion of two rows whose data spells terminators, comments and signs. -/
def noteInsertion : Statement :=
  .insert
    { table := { name := "notes" }
      columns := ["id", "body"]
      values := .expr (.list
        [.list [.number "-1", .text "it's; -- here"],
         .list [.unary "-" (.number "-2.5e3"),
           .function "upper" [.of { Term.blank .param with name := "?" }]]]) }

theorem execute_noteInsertion :
  ∃ r, noteInsertion.render {} = .ok r
    ∧ ∃ parts, noteInsertion.IsMadeOf {} r.text parts ∧ (∀ part, parts = [part] → part = r.text)
      ∧ (execute (fun _ _ => .done none) [] r.text).calls = noteInsertion.storeCalls parts
      ∧ (execute (fun _ _ => .done none) [] r.text).failure? = none
  := by
  obtain ⟨r, hr⟩ : ∃ r, noteInsertion.render {} = .ok r := ⟨_, rfl⟩
  have hstore : Store.Accepting (fun _ _ => .done none) := fun _ _ => ⟨none, rfl⟩
  exact ⟨r, hr, execute_rendering (by decide) (by decide) hr hstore []⟩

end CqlGateway

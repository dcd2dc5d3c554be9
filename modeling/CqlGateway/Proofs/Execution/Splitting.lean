import CqlGateway.Execution.Coordinator
import CqlGateway.Proofs.Execution.Scanning
import CqlGateway.Proofs.Text.Blank
import Mathlib.Data.List.Forall2

/-!
# Splitting and running closed texts

A closed text is read as one statement: the text itself without its comments and without the
blanks at its end. Closed texts that are joined by terminators are read as these statements, in
their order. The same holds inside a batch, whose marks are taken away. A store that accepts every
call is then given exactly these statements: one by one, or at once for a batch.
-/

namespace CqlGateway.Execution

variable {css : List (List Char)} {bs : List Char} {store : Store}
  {rest statements : List (List Char)}

/-- A text is read as the given statement, whatever stands before it in its piece and whatever
follows. -/
def Reads (cs statement : List Char) : Prop :=
  ∃ kept : List Char,
    (∀ acc rest, pieces .plain acc (cs ++ ';' :: rest)
      = (acc.reverse ++ kept) :: pieces .plain [] rest)
    ∧ (∀ acc, pieces .plain acc cs = [acc.reverse ++ kept])
    ∧ Text.startsSolid kept = true ∧ Text.trimBack kept = statement

namespace Reads

variable {cs statement : List Char}

theorem startsSolid (h : Reads cs statement) :
  Text.startsSolid statement = true
  := by
  obtain ⟨kept, -, -, hstart, rfl⟩ := h
  apply Text.startsSolid_trimBack hstart

theorem endsSolid (h : Reads cs statement) :
  Text.endsSolid statement = true
  := by
  obtain ⟨kept, -, -, hstart, rfl⟩ := h
  apply Text.endsSolid_trimBack hstart

theorem ne_nil (h : Reads cs statement) :
  statement ≠ []
  := by
  rintro rfl
  cases h.startsSolid

theorem before (h : Reads cs statement) {ds : List Char} (hds : leadsOut ds = true)
    (hstart : Text.startsSolid ds = true) :
  Reads (ds ++ cs) (ds ++ statement)
  := by
  obtain ⟨kept, hpieces, hlast, hsolid, rfl⟩ := h
  refine ⟨ds ++ kept, ?_, ?_, Text.startsSolid_append hstart kept, ?_⟩
  · intro acc rest
    rw [List.append_assoc, pieces_of_leadsOut hds, hpieces]
    simp
  · intro acc
    rw [pieces_of_leadsOut hds, hlast]
    simp
  · apply Text.trimBack_append hsolid

end Reads

/-- A closed text that starts solid and holds no comments is read as it stands, without the blanks
at its end. -/
theorem Closed.reads
    {cs : List Char} (h : Closed false cs) (hstart : Text.startsSolid cs = true)
    (hend : Text.endsSolid cs = true) :
  Reads cs cs
  := by
  obtain ⟨kept, hpieces, hlast, hkept⟩ := h.pieces
  rw [hkept rfl] at hpieces hlast
  exact ⟨cs, hpieces, hlast, hstart, Text.trimBack_of_endsSolid hend⟩

/-- A closed text is read as a statement that starts as the text does. -/
theorem Closed.reads_append
    {cs ds : List Char} (hcs : leadsOut cs = true) (hstart : Text.startsSolid cs = true)
    (hend : Text.endsSolid cs = true) (hds : Closed true (cs ++ ds)) :
  ∃ statement, Reads (cs ++ ds) statement ∧ cs <+: statement
  := by
  obtain ⟨kept, hpieces, hlast, -⟩ := ((closed_append_iff hcs).mp hds).pieces
  refine ⟨Text.trimBack (cs ++ kept), ⟨cs ++ kept, ?_, ?_, ?_, rfl⟩, ?_⟩
  · intro acc rest
    rw [List.append_assoc, pieces_of_leadsOut hcs, hpieces]
    simp
  · intro acc
    rw [pieces_of_leadsOut hcs, hlast]
    simp
  · apply Text.startsSolid_append hstart
  · apply Text.prefix_trimBack_append hend

/-- A text of blanks that leads out, as it stands before and between statements. -/
def isMargin (bs : List Char) : Bool :=
  bs.all Text.isBlank && leadsOut bs

theorem isMargin_breaks (n : Nat) :
  isMargin (List.replicate n '\n') = true
  := by
  induction n with
  | zero => rfl
  | succ n ih =>
    have hbreak : leadsOut ['\n'] = true := by decide
    rw [isMargin, Bool.and_eq_true] at ih ⊢
    rw [List.replicate_succ, List.all_cons, ih.1]
    exact ⟨by decide, leadsOut_append hbreak ih.2⟩

/-! ### Statements of joined texts -/

theorem statementChars_margin (hbs : isMargin bs = true) :
  statementChars bs = []
  := by
  rw [isMargin, Bool.and_eq_true] at hbs
  have hpieces := pieces_of_leadsOut hbs.2 [] []
  have htrim : Text.trimChars bs = [] := by
    have h := Text.trimFront_blanks hbs.1 []
    rw [List.append_nil] at h
    rw [Text.trimChars, h]
    rfl
  rw [List.append_nil, List.append_nil] at hpieces
  simp [statementChars, hpieces, pieces, htrim]

/-- A text behind a margin is the first statement before a terminator. -/
theorem statementChars_cons {cs statement : List Char} (hbs : isMargin bs = true)
    (hcs : Reads cs statement) (rest : List Char) :
  statementChars (bs ++ cs ++ ';' :: rest) = statement :: statementChars rest
  := by
  rw [isMargin, Bool.and_eq_true] at hbs
  have hne := hcs.ne_nil
  obtain ⟨kept, hpieces, -, hstart, rfl⟩ := hcs
  have htrim : Text.trimChars (bs ++ kept) = Text.trimBack kept := by
    rw [Text.trimChars, Text.trimFront_blanks hbs.1, Text.trimFront_of_startsSolid hstart]
  rw [statementChars, List.append_assoc, pieces_of_leadsOut hbs.2, hpieces, List.append_nil,
    List.reverse_reverse, List.map_cons, htrim, List.filter_cons_of_pos (by simpa using hne),
    statementChars]

theorem Reads.statementChars {cs statement : List Char} (h : Reads cs statement) :
  statementChars cs = [statement]
  := by
  have hne := h.ne_nil
  obtain ⟨kept, -, hlast, hstart, rfl⟩ := h
  simp [Execution.statementChars, hlast, Text.trimChars, Text.trimFront_of_startsSolid hstart, hne]

/-- Texts, each behind a margin and before a terminator, are the first statements. -/
theorem statementChars_terminated (hbs : isMargin bs = true)
    (hcss : List.Forall₂ Reads css statements) (rest : List Char) :
  statementChars (css.flatMap (fun cs => bs ++ cs ++ [';']) ++ rest)
    = statements ++ statementChars rest
  := by
  induction hcss with
  | nil => rfl
  | cons hhead _ ih =>
    rw [List.flatMap_cons, List.append_assoc, List.append_assoc (bs ++ _), List.singleton_append,
      statementChars_cons hbs hhead, ih, List.cons_append]

/-- Joining texts by a terminator and a line break is writing each but the first behind a line
break and before a terminator. -/
theorem intercalate_terminators (cs : List Char) (css : List (List Char)) :
  List.intercalate [';', '\n'] (cs :: css) ++ [';']
    = [] ++ cs ++ ';' :: (css.flatMap (fun ds => ['\n'] ++ ds ++ [';']) ++ [])
  := by
  induction css generalizing cs with
  | nil => simp
  | cons ds css ih =>
    simp only [List.intercalate_cons_cons, List.append_assoc, ih ds]
    simp

/-- Texts divided by a terminator and a line break, with a terminator at the end, are the
statements of the whole. -/
theorem statementChars_intercalate (hcss : List.Forall₂ Reads css statements) (hne : css ≠ []) :
  statementChars (List.intercalate [';', '\n'] css ++ [';']) = statements
  := by
  cases hcss with
  | nil => cases hne rfl
  | cons hhead htail =>
    rw [intercalate_terminators, statementChars_cons (by decide) hhead,
      statementChars_terminated (by decide) htail, statementChars_margin (by decide),
      List.append_nil]

/-! ### Batches -/

/-- What stands before the first statement of a batch in its piece. -/
def batchOpening : List Char :=
  "BEGIN BATCH\n  ".toList

/-- A text whose first letter is not that of the mark of a batch does not begin a batch. -/
theorem afterBegin?_eq_none
    {c : Char} (hc : Text.foldChar c ≠ 'b') (cs : List Char) :
  afterBegin? (c :: cs) = none
  := by
  have hbegin : Text.keyword? "begin".toList (c :: cs) = none := if_neg hc
  rw [afterBegin?, Text.wordAndGap?, List.findSome?_cons, hbegin]
  rfl

theorem afterBegin?_batchOpening (cs : List Char) :
  afterBegin? (batchOpening ++ cs) = some ("\n  ".toList ++ cs)
  := rfl

theorem isApply_eq_false {c : Char} (hc : Text.foldChar c ≠ 'a') (cs : List Char) :
  isApply (c :: cs) = false
  := by
  have hkeyword : Text.keyword? "apply".toList (c :: cs) = none := if_neg hc
  have hgap : Text.wordAndGap? ["apply"] (c :: cs) = none := by
    rw [Text.wordAndGap?, List.findSome?_cons, hkeyword]
    rfl
  rw [isApply, hgap]
  rfl

/-- The statements before the mark that ends a batch are all of them. -/
theorem untilApply_append (hcss : ∀ cs ∈ css, isApply cs = false) {mark : List Char}
    (hmark : isApply mark = true) (read : List (List Char)) (hne : read ++ css ≠ []) :
  untilApply read (css ++ [mark]) = .ok (read.reverse ++ css)
  := by
  induction css generalizing read with
  | nil =>
    rw [List.append_nil] at hne
    cases read with
    | nil => cases hne rfl
    | cons cs read => simp [untilApply, hmark]
  | cons cs css ih =>
    have hhead := hcss cs List.mem_cons_self
    have htail := ih (fun ds hds => hcss ds (List.mem_cons_of_mem cs hds)) (cs :: read) (by simp)
    rw [List.cons_append, untilApply.eq_def]
    simp only [hhead, if_neg Bool.false_ne_true, htail]
    simp

/-- The lines of a batch, read from one terminator to the next. -/
theorem batchLines_eq (cs : List Char) (css : List (List Char)) (rest : List Char) :
  (cs :: css).flatMap (fun ds => "  ".toList ++ ds ++ ";\n".toList) ++ rest
    = "  ".toList ++ cs ++ ';' :: (css.flatMap (fun ds => "\n  ".toList ++ ds ++ [';'])
        ++ '\n' :: rest)
  := by
  induction css generalizing cs with
  | nil => simp
  | cons ds css ih =>
    rw [List.flatMap_cons, List.append_assoc, ih ds]
    simp

/-- The statements of a batch with their marks, if what stands before it is a comment. -/
theorem statementChars_batch {cs first : List Char} (hcs : Reads cs first)
    (hcss : List.Forall₂ Reads css rest) {comment : List Char}
    (hcomment : ∀ ds, pieces .plain [] (comment ++ '\n' :: ds) = pieces .plain ['\n'] ds) :
  statementChars (comment ++ "\nBEGIN BATCH\n".toList
      ++ (cs :: css).flatMap (fun ds => "  ".toList ++ ds ++ ";\n".toList)
      ++ "APPLY BATCH;".toList)
    = (batchOpening ++ first) :: rest ++ ["APPLY BATCH".toList]
  := by
  have hopening : Reads (batchOpening ++ cs) (batchOpening ++ first) := by
    apply hcs.before (by decide) rfl
  have happly : Reads "APPLY BATCH".toList "APPLY BATCH".toList := by
    apply Closed.reads (closed_of_leadsOut (by decide)) rfl rfl
  have hend : "\nAPPLY BATCH;".toList = ['\n'] ++ "APPLY BATCH".toList ++ ';' :: [] := rfl
  calc
    _ = statementChars (['\n'] ++ (batchOpening ++ cs)
          ++ ';' :: (css.flatMap (fun ds => "\n  ".toList ++ ds ++ [';'])
            ++ "\nAPPLY BATCH;".toList)) := by
        rw [List.append_assoc, batchLines_eq]
        simp only [statementChars]
        have h := hcomment ("BEGIN BATCH\n".toList ++ ("  ".toList ++ cs
          ++ ';' :: (css.flatMap (fun ds => "\n  ".toList ++ ds ++ [';'])
            ++ '\n' :: "APPLY BATCH;".toList)))
        simp only [List.append_assoc] at h ⊢
        apply congrArg (fun ps => (List.map Text.trimChars ps).filter fun cs => !cs.isEmpty)
        apply h
    _ = (batchOpening ++ first) :: rest ++ ["APPLY BATCH".toList] := by
        rw [statementChars_cons (by decide) hopening, statementChars_terminated (by decide) hcss,
          hend, statementChars_cons (by decide) happly, statementChars_margin (by decide),
          List.cons_append]

/-- Statements that are written as a batch are the statements of that batch. -/
theorem batchOf?_batch {first : List Char} (hstart : Text.startsSolid first = true)
    (hend : Text.endsSolid first = true) (hmarks : ∀ ds ∈ first :: rest, isApply ds = false) :
  batchOf? ((batchOpening ++ first) :: rest ++ ["APPLY BATCH".toList]) = some (.ok (first :: rest))
  := by
  have htrim := Text.trimChars_blanks_append (rfl : "\n  ".toList.all Text.isBlank = true) hstart
    hend
  have hne : first.isEmpty = false := by
    cases first with
    | nil => cases hstart
    | cons c cs => rfl
  have huntil := untilApply_append hmarks (rfl : isApply "APPLY BATCH".toList = true) []
    (List.cons_ne_nil first rest)
  rw [List.cons_append, batchOf?, afterBegin?_batchOpening, Option.map_some]
  simp only [htrim, hne, Bool.false_eq_true, if_false]
  rw [← List.cons_append, huntil]
  rfl

/-! ### Runs against a store that accepts every call -/

/-- Whether a store accepts every call. -/
def Store.Accepting (store : Store) : Prop :=
  ∀ history call, ∃ result, store history call = .done result

/-- Run one by one against such a store, statements are handed over in order. -/
theorem runAll_accepting (hstore : store.Accepting) (history : List StoreCall) (total number : Nat)
    (o : Outcome) (ss : List String) :
  (runAll store history total number o ss).calls = o.calls ++ ss.map .exec
    ∧ (runAll store history total number o ss).failure? = o.failure?
  := by
  induction ss generalizing number o with
  | nil => simp [runAll]
  | cons s ss ih =>
    obtain ⟨result, hresult⟩ := hstore (o.calls.reverse ++ history) (.exec s)
    obtain ⟨hcalls, hfailure⟩ := ih (number + 1)
      { o with calls := o.calls ++ [StoreCall.exec s], statements := o.statements ++ [s],
               result := result }
    simp only [runAll, hresult]
    constructor
    · rw [hcalls]
      simp
    · apply hfailure

theorem execute_statements (hstore : store.Accepting) (history : List StoreCall) {text : String}
    (hsplit : statementChars text.toList = css) (hne : css ≠ []) (hbatch : batchOf? css = none) :
  (execute store history text).calls = css.map (fun cs => .exec (String.ofList cs))
    ∧ (execute store history text).failure? = none
  := by
  have hbatch? : batch? text = none := by simp [batch?, hsplit, hbatch]
  simp only [execute, hbatch?, statements, hsplit]
  match css, hne with
  | [cs], _ =>
    obtain ⟨hcalls, hfailure⟩ := runAll_accepting hstore history 1 1 { mode := .single }
      [String.ofList cs]
    exact ⟨by simpa [runStatements] using hcalls, by simpa [runStatements] using hfailure⟩
  | cs :: ds :: css, _ =>
    obtain ⟨hcalls, hfailure⟩ := runAll_accepting hstore history (css.length + 2) 1
      { mode := .sequence } ((cs :: ds :: css).map String.ofList)
    constructor
    · simpa [runStatements, Function.comp_def] using hcalls
    · simpa [runStatements] using hfailure

theorem execute_batch (hstore : store.Accepting) (history : List StoreCall) {text : String}
    (hbatch : batchOf? (statementChars text.toList) = some (.ok css)) :
  (execute store history text).calls = [.batch (css.map String.ofList)]
    ∧ (execute store history text).failure? = none
  := by
  have hbatch? : batch? text = some (.ok (css.map String.ofList)) := by
    simp [batch?, hbatch, Except.map]
  obtain ⟨result, hresult⟩ := hstore history (.batch (css.map String.ofList))
  simp [execute, hbatch?, runBatch, hresult]

end CqlGateway.Execution

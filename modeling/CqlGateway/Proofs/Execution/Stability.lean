import CqlGateway.Proofs.Execution.Splitting

/-!
# Splitting again

The statements of a text are left as they are when they are split again, one by one or joined by
terminators. What carries this over the whole text is what is known of a piece while it is read:
without its comments it leads from the outside to the mark of the position, so the pieces hold
neither terminators nor comments, and all of them but the last one are closed. Splitting is also
compositional: behind a text that ends outside of everything, a terminator begins anew.
-/

namespace CqlGateway.Execution

variable {acc cs : List Char} {p : Mark} {c : Char}

/-! ### The end of a text -/

/-- The mark behind a text, which may hold terminators. -/
def markBehind (p : Mark) (cs : List Char) : Mark :=
  cs.foldl Mark.next p

/-- Whether a text ends outside of literals, quoted names and comments. -/
def endsOutside (text : String) : Bool :=
  (markBehind .plain text.toList).isOutside

theorem Mark.eq_terminator_of_ends (h : p.ends c = true) :
  p.isOutside = true ∧ c = ';'
  := by
  simpa [Mark.ends] using h

theorem Mark.next_terminator (h : p.isOutside = true) :
  p.next ';' = .plain
  := by
  cases p <;> first | rfl | cases h

/-- A walk without terminators leads to the mark behind the text. -/
theorem markBehind_of_walk {comments : Bool} {q : Mark} (h : walk comments p cs = some q) :
  markBehind p cs = q
  := by
  induction cs generalizing p with
  | nil => exact Option.some.inj h
  | cons c cs ih =>
    rw [walk_cons] at h
    obtain ⟨r, hr, hq⟩ := Option.bind_eq_some_iff.mp h
    obtain ⟨-, -, rfl⟩ := Mark.next?_eq_some.mp hr
    exact ih hq

/-- What follows a terminator is split as from the start. -/
theorem pieces_append_terminator {as : List Char} (hout : (markBehind p as).isOutside = true)
    (acc bs : List Char) :
  pieces p.place acc (p.pending ++ (as ++ ';' :: bs))
    = pieces p.place acc (p.pending ++ as) ++ pieces .plain [] bs
  := by
  induction as generalizing p acc with
  | nil =>
    rw [List.nil_append, List.append_nil, pieces_terminator (p := p) hout, pieces_end,
      List.singleton_append]
  | cons c as ih =>
    rw [List.cons_append]
    cases hend : p.ends c with
    | true =>
      obtain ⟨hp, rfl⟩ := Mark.eq_terminator_of_ends hend
      have hrest : (markBehind .plain as).isOutside = true := by
        rwa [← Mark.next_terminator hp]
      rw [pieces_terminator hp, pieces_terminator hp, List.cons_append]
      exact congrArg _ (ih hrest [])
    | false =>
      rw [pieces_next hend, pieces_next hend]
      exact ih hout _

/-- The statements among pieces. -/
def statementsOf (ps : List (List Char)) : List (List Char) :=
  (ps.map Text.trimChars).filter (!·.isEmpty)

theorem statementsOf_append (ps qs : List (List Char)) :
  statementsOf (ps ++ qs) = statementsOf ps ++ statementsOf qs
  := by
  rw [statementsOf, List.map_append, List.filter_append, statementsOf, statementsOf]

/-- A text that ends outside of everything, a terminator and another text have the statements of
both texts. -/
theorem statementChars_append_terminator
    {as : List Char} (hout : (markBehind .plain as).isOutside = true) (bs : List Char) :
  statementChars (as ++ ';' :: bs) = statementChars as ++ statementChars bs
  := by
  have hpieces : pieces .plain [] (as ++ ';' :: bs) = pieces .plain [] as ++ pieces .plain [] bs :=
    pieces_append_terminator hout [] bs
  exact (congrArg statementsOf hpieces).trans (statementsOf_append _ _)

/-! ### What stands before the first piece -/

/-- What has been read of a piece stands at its front, and the other pieces do not depend on it. -/
theorem pieces_eq_cons (p : Mark) (cs : List Char) :
  ∃ first rest, ∀ acc, pieces p.place acc (p.pending ++ cs) = (acc.reverse ++ first) :: rest
  := by
  induction cs generalizing p with
  | nil =>
    refine ⟨p.pending, [], fun acc => ?_⟩
    rw [List.append_nil, pieces_end]
  | cons c cs ih =>
    cases hend : p.ends c with
    | true =>
      obtain ⟨hp, rfl⟩ := Mark.eq_terminator_of_ends hend
      exact ⟨p.pending, pieces .plain [] cs, fun acc => pieces_terminator hp acc cs⟩
    | false =>
      obtain ⟨first, rest, hrest⟩ := ih (p.next c)
      refine ⟨p.kept c ++ first, rest, fun acc => ?_⟩
      rw [pieces_next hend, hrest]
      simp

theorem statementChars_margin_append {bs : List Char} (hbs : isMargin bs = true) (cs : List Char) :
  statementChars (bs ++ cs) = statementChars cs
  := by
  rw [isMargin, Bool.and_eq_true] at hbs
  obtain ⟨first, rest, hpieces⟩ := pieces_eq_cons .plain cs
  have hcs : pieces .plain [] cs = first :: rest := hpieces []
  have hbscs : pieces .plain [] (bs ++ cs) = (bs ++ first) :: rest := by
    have h := hpieces bs.reverse
    rw [List.reverse_reverse] at h
    rw [pieces_of_leadsOut hbs.2, List.append_nil]
    exact h
  have htrim : Text.trimChars (bs ++ first) = Text.trimChars first := by
    rw [Text.trimChars, Text.trimFront_blanks hbs.1, Text.trimChars]
  rw [statementChars, statementChars, hcs, hbscs, List.map_cons, List.map_cons, htrim]

/-! ### Unbroken texts -/

/-- Whether a text holds no terminator and no comment. It may end inside of a literal or a quoted
name. -/
def IsUnbroken (cs : List Char) : Prop :=
  ∃ q, walk false .plain cs = some q

theorem Closed.isUnbroken (h : Closed false cs) :
  IsUnbroken cs
  := by
  obtain ⟨q, hq, -⟩ := h
  exact ⟨q, hq⟩

theorem IsUnbroken.pieces (h : IsUnbroken cs) :
  pieces .plain [] cs = [cs]
  := by
  obtain ⟨q, hq⟩ := h
  obtain ⟨kept, hpieces, hkept⟩ := pieces_walk hq
  have hread := hpieces [] []
  rw [List.append_nil, List.append_nil, List.append_nil, pieces_end, List.reverse_reverse,
    hkept rfl (by decide)] at hread
  exact hread

theorem Mark.next_blank (hc : Text.isBlank c = true) (hp : p ≠ .comment) :
  p.ends c = false ∧ p.next c = if p.isOutside then .plain else p
  := by
  have hother {d : Char} (hd : Text.isBlank d = false) : c ≠ d := by
    rintro rfl
    rw [hc] at hd
    cases hd
  have hend : c ≠ ';' := hother rfl
  have hdash : c ≠ '-' := hother rfl
  have hslash : c ≠ '/' := hother rfl
  have hquote : c ≠ '\x27' := hother rfl
  have hname : c ≠ '"' := hother rfl
  cases p with
  | comment => cases hp rfl
  | _ => simp [Mark.ends, Mark.next, Mark.opening, Mark.isOutside, *]

/-- Blanks lead outside of everything, or they leave the mark as it is. -/
theorem walk_blanks {bs : List Char} (hbs : bs.all Text.isBlank = true) (hp : p ≠ .comment) :
  ∃ q, walk false p bs = some q ∧ q.isOutside = p.isOutside ∧ (p = .plain → q = .plain)
  := by
  induction bs generalizing p with
  | nil => exact ⟨p, rfl, rfl, id⟩
  | cons b bs ih =>
    rw [List.all_cons, Bool.and_eq_true] at hbs
    obtain ⟨hend, hnext⟩ := Mark.next_blank hbs.1 hp
    have hne : p.next b ≠ .comment := by
      rw [hnext]
      split
      · decide
      · exact hp
    have hout : (p.next b).isOutside = p.isOutside := by
      rw [hnext]
      split
      next hout => rw [hout]; rfl
      next => rfl
    obtain ⟨q, hq, hqout, hplain⟩ := ih hbs.2 hne
    refine ⟨q, ?_, hqout.trans hout, ?_⟩
    · rw [walk_cons, Mark.next?_eq_some.mpr ⟨hend, fun _ => hne, rfl⟩]
      exact hq
    · rintro rfl
      exact hplain hnext

/-- Without comments, a walk does not lead into one. -/
theorem ne_comment_of_walk {q : Mark} (hp : p ≠ .comment) (h : walk false p cs = some q) :
  q ≠ .comment
  := by
  induction cs generalizing p with
  | nil =>
    cases h
    exact hp
  | cons c cs ih =>
    rw [walk_cons] at h
    obtain ⟨r, hr, hq⟩ := Option.bind_eq_some_iff.mp h
    obtain ⟨-, hne, rfl⟩ := Mark.next?_eq_some.mp hr
    exact ih (hne rfl) hq

/-- Trimming leaves the mark behind a text outside or inside. -/
theorem walk_trimChars {q : Mark} (h : walk false .plain cs = some q) :
  ∃ r, walk false .plain (Text.trimChars cs) = some r ∧ r.isOutside = q.isOutside
  := by
  obtain ⟨bs, hbs, hfront⟩ := Text.exists_blanks_append_trimFront cs
  obtain ⟨ds, hds, hback⟩ := Text.exists_trimBack_append_blanks (Text.trimFront cs)
  obtain ⟨p, hp, -, hplain⟩ := walk_blanks hbs (by decide : Mark.plain ≠ .comment)
  rw [← hfront, walk_append, hp, hplain rfl, Option.bind_some, ← hback, walk_append] at h
  obtain ⟨r, hr, hq⟩ := Option.bind_eq_some_iff.mp h
  obtain ⟨q', hq', hout, -⟩ := walk_blanks hds (ne_comment_of_walk (by decide) hr)
  cases hq.symm.trans hq'
  exact ⟨r, hr, hout.symm⟩

theorem IsUnbroken.trimChars (h : IsUnbroken cs) :
  IsUnbroken (Text.trimChars cs)
  := by
  obtain ⟨q, hq⟩ := h
  obtain ⟨r, hr, -⟩ := walk_trimChars hq
  exact ⟨r, hr⟩

theorem Closed.trimChars (h : Closed false cs) :
  Closed false (Text.trimChars cs)
  := by
  obtain ⟨q, hq, hout⟩ := h
  obtain ⟨r, hr, hsame⟩ := walk_trimChars hq
  exact ⟨r, hr, hsame.trans hout⟩

/-! ### Pieces -/

/-- What has been read of a piece leads to the mark of the position; in front of a comment, it
is closed. -/
def LeadsTo (p : Mark) (acc : List Char) : Prop :=
  if p = .comment then Closed false acc.reverse
  else walk false .plain (acc.reverse ++ p.pending) = some p

theorem leadsTo_plain :
  LeadsTo .plain []
  := rfl

theorem LeadsTo.walk (h : LeadsTo p acc) (hp : p ≠ .comment) :
  walk false .plain (acc.reverse ++ p.pending) = some p
  := by
  rwa [LeadsTo, if_neg hp] at h

/-- In front of a character that may begin a comment, a piece is closed. -/
theorem LeadsTo.closed (h : LeadsTo p acc) (hp : p = .dash ∨ p = .slash ∨ p = .comment) :
  Closed false acc.reverse
  := by
  have hbefore {q : Mark} {c : Char} (hq : Execution.walk false .plain (acc.reverse ++ [c]) = some q)
      (hout : ∀ r, Mark.next? false r c = some q → r.isOutside = true) :
      Closed false acc.reverse := by
    rw [walk_append] at hq
    obtain ⟨r, hr, hnext⟩ := Option.bind_eq_some_iff.mp hq
    rw [walk_cons] at hnext
    obtain ⟨q', hq', hsame⟩ := Option.bind_eq_some_iff.mp hnext
    cases hsame
    exact ⟨r, hr, hout r hq'⟩
  rcases hp with rfl | rfl | rfl
  · apply hbefore (h.walk (by decide))
    intro r
    cases r <;> decide
  · apply hbefore (h.walk (by decide))
    intro r
    cases r <;> decide
  · exact h

/-- What begins or goes on with a comment is not kept. -/
theorem Mark.kept_of_comment (h : p.next c = .comment) :
  p.kept c = [] ∧ (p = .dash ∨ p = .slash ∨ p = .comment)
  := by
  have hopening : Mark.opening c ≠ .comment := by
    unfold Mark.opening
    repeat' split
    all_goals decide
  cases p with
  | plain => cases hopening h
  | dash =>
    by_cases hdash : c = '-'
    · simp [Mark.kept, hdash]
    · simp [Mark.next, hdash, hopening] at h
  | slash =>
    by_cases hslash : c = '/'
    · simp [Mark.kept, hslash]
    · simp [Mark.next, hslash, hopening] at h
  | literal =>
    by_cases hquote : c = '\x27' <;> simp [Mark.next, hquote] at h
  | quote =>
    by_cases hquote : c = '\x27' <;> simp [Mark.next, hquote, hopening] at h
  | name =>
    by_cases hname : c = '"' <;> simp [Mark.next, hname] at h
  | comment =>
    by_cases hline : c = '\n'
    · simp [Mark.next, hline] at h
    · simp [Mark.kept, hline]

/-- What is kept of a piece leads on when one more character is read. -/
theorem LeadsTo.next (h : LeadsTo p acc) (hend : p.ends c = false) :
  LeadsTo (p.next c) ((p.kept c).reverse ++ acc)
  := by
  by_cases hnext : p.next c = .comment
  · obtain ⟨hkept, hp⟩ := Mark.kept_of_comment hnext
    rw [LeadsTo, if_pos hnext, hkept]
    exact h.closed hp
  rw [LeadsTo, if_neg hnext, List.reverse_append, List.reverse_reverse]
  by_cases hp : p = .comment
  · -- The comment is over: its line break is read behind a closed piece.
    subst hp
    have hline : c = '\n' := by simpa [Mark.next] using hnext
    subst hline
    obtain ⟨q, hq, hout⟩ := h.closed (.inr (.inr rfl))
    obtain ⟨hends, hplain⟩ := Mark.next_blank (rfl : Text.isBlank '\n' = true)
      (ne_comment_of_walk (by decide) hq)
    rw [if_pos hout] at hplain
    rw [List.append_assoc, walk_append, hq, Option.bind_some]
    change Execution.walk false q ['\n'] = some .plain
    rw [walk_cons, Mark.next?_eq_some.mpr ⟨hends, fun _ => by rw [hplain]; decide, hplain⟩]
    rfl
  · rw [List.append_assoc, Mark.kept_append_pending hp hnext, ← List.append_assoc, walk_append,
      h.walk hp, Option.bind_some, walk_cons,
      Mark.next?_eq_some.mpr ⟨hend, fun _ => hnext, rfl⟩]
    rfl

theorem LeadsTo.isUnbroken (h : LeadsTo p acc) :
  IsUnbroken (acc.reverse ++ p.pending)
  := by
  by_cases hp : p = .comment
  · subst hp
    change IsUnbroken (acc.reverse ++ [])
    rw [List.append_nil]
    exact (h.closed (.inr (.inr rfl))).isUnbroken
  · exact ⟨p, h.walk hp⟩

/-- A statement as splitting leaves it: an unbroken text without blanks at its ends. -/
structure IsStatement (cs : List Char) : Prop where
  ne_nil : cs ≠ []
  trimmed : Text.trimChars cs = cs
  unbroken : IsUnbroken cs

/-- Statements all of which but the last one are closed. -/
inductive AreStatements : List (List Char) → Prop
  | nil : AreStatements []
  | last {cs : List Char} (h : IsStatement cs) : AreStatements [cs]
  | cons {cs : List Char} {css : List (List Char)} (h : IsStatement cs)
      (hclosed : Closed false cs) (hcss : AreStatements css) : AreStatements (cs :: css)

theorem statementsOf_cons (h : IsUnbroken cs) (ps : List (List Char)) :
  statementsOf (cs :: ps) = statementsOf ps
    ∨ IsStatement (Text.trimChars cs) ∧ statementsOf (cs :: ps) = Text.trimChars cs :: statementsOf ps
  := by
  unfold statementsOf
  rw [List.map_cons]
  by_cases hnil : Text.trimChars cs = []
  · exact .inl (List.filter_cons_of_neg (by simpa using hnil))
  · refine .inr ⟨⟨hnil, Text.trimChars_trimChars cs, h.trimChars⟩, ?_⟩
    exact List.filter_cons_of_pos (by simpa using hnil)

/-- Splitting yields statements, all of which but the last one are closed. -/
theorem areStatements_pieces (h : LeadsTo p acc) (cs : List Char) :
  AreStatements (statementsOf (pieces p.place acc (p.pending ++ cs)))
  := by
  induction cs generalizing p acc with
  | nil =>
    rw [List.append_nil, pieces_end]
    rcases statementsOf_cons h.isUnbroken [] with heq | ⟨hstatement, heq⟩
    · rw [heq]
      exact .nil
    · rw [heq]
      exact .last hstatement
  | cons c cs ih =>
    cases hend : p.ends c with
    | true =>
      obtain ⟨hout, rfl⟩ := Mark.eq_terminator_of_ends hend
      have hp : p ≠ .comment := by
        rintro rfl
        cases hout
      have hclosed : Closed false (acc.reverse ++ p.pending) := ⟨p, h.walk hp, hout⟩
      have hrest : AreStatements (statementsOf (pieces .plain [] cs)) := ih leadsTo_plain
      rw [pieces_terminator hout]
      rcases statementsOf_cons hclosed.isUnbroken (pieces .plain [] cs) with
        heq | ⟨hstatement, heq⟩
      · rw [heq]
        exact hrest
      · rw [heq]
        exact .cons hstatement hclosed.trimChars hrest
    | false =>
      rw [pieces_next hend]
      exact ih (h.next hend)

theorem areStatements_statementChars (cs : List Char) :
  AreStatements (statementChars cs)
  := areStatements_pieces leadsTo_plain cs

/-! ### Splitting again -/

theorem IsStatement.statementChars (h : IsStatement cs) :
  statementChars cs = [cs]
  := by
  have hne := h.ne_nil
  simp [Execution.statementChars, h.unbroken.pieces, h.trimmed, hne]

theorem AreStatements.isStatement {css : List (List Char)} (h : AreStatements css) :
  ∀ cs ∈ css, IsStatement cs
  := by
  induction h with
  | nil => exact List.forall_mem_nil _
  | last h => exact List.forall_mem_singleton.mpr h
  | cons h _ _ ih => exact List.forall_mem_cons.mpr ⟨h, ih⟩

/-- Statements that are joined by a terminator and a line break are split again. -/
theorem AreStatements.statementChars_intercalate {css : List (List Char)} (h : AreStatements css) :
  statementChars (List.intercalate [';', '\n'] css) = css
  := by
  induction h with
  | nil => rfl
  | last h => rw [List.intercalate_singleton, h.statementChars]
  | @cons cs css h hclosed _ ih =>
    cases css with
    | nil => rw [List.intercalate_singleton, h.statementChars]
    | cons ds css =>
      obtain ⟨q, hq, hout⟩ := hclosed
      rw [← markBehind_of_walk hq] at hout
      have hjoin : List.intercalate [';', '\n'] (cs :: ds :: css)
          = cs ++ ';' :: (['\n'] ++ List.intercalate [';', '\n'] (ds :: css)) := by
        rw [List.intercalate_cons_cons, List.append_assoc]
        rfl
      rw [hjoin, statementChars_append_terminator hout, h.statementChars,
        statementChars_margin_append (by decide), ih, List.singleton_append]

/-- Every statement of a text is nonempty and trimmed and is split into itself, and the statements
joined by terminators are split into themselves. A text that ends outside of everything, a
terminator and another text have the statements of both texts, one after the other. -/
theorem statements_stable (text : String) :
  (∀ s ∈ statements text, s ≠ "" ∧ Text.trim s = s ∧ statements s = [s])
    ∧ statements (String.intercalate ";\n" (statements text)) = statements text
    ∧ ∀ a b, endsOutside a = true → statements (a ++ ";" ++ b) = statements a ++ statements b
  := by
  have hstatements := areStatements_statementChars text.toList
  refine ⟨?_, ?_, ?_⟩
  · intro s hs
    obtain ⟨cs, hcs, rfl⟩ := List.mem_map.mp hs
    have h := hstatements.isStatement cs hcs
    refine ⟨?_, ?_, ?_⟩
    · intro hempty
      exact h.ne_nil (by simpa using congrArg String.toList hempty)
    · rw [Text.trim, String.toList_ofList, h.trimmed]
    · rw [statements, String.toList_ofList, h.statementChars]
      rfl
  · rw [statements, String.toList_intercalate, statements, List.map_map]
    simp only [Function.comp_def, String.toList_ofList, List.map_id']
    exact congrArg (List.map String.ofList) hstatements.statementChars_intercalate
  · intro a b hout
    have h := statementChars_append_terminator hout b.toList
    rw [statements, String.toList_append, String.toList_append, List.append_assoc, statements,
      statements, ← List.map_append, ← h]
    rfl

/-- A comment, a literal and a quoted name that hold a terminator, and a literal that is not
closed. -/
theorem statements_stable_remark :
  let a := "USE k -- ;\n; SELECT ';''' FROM \"a;\" // ;\n"
  let b := " SELECT 'x; "
  endsOutside a = true
    ∧ statements (a ++ ";" ++ b) = ["USE k", "SELECT ';''' FROM \"a;\"", "SELECT 'x;"]
    ∧ statements "SELECT 'x;" = ["SELECT 'x;"]
  := by
  intro a b
  have hout : endsOutside a = true := by decide
  have ha : statements a = ["USE k", "SELECT ';''' FROM \"a;\""] := by decide
  have hb : statements b = ["SELECT 'x;"] := by decide
  have hjoined := (statements_stable a).2.2 a b hout
  rw [ha, hb] at hjoined
  have hagain := (statements_stable b).1 "SELECT 'x;" (by simp [hb])
  exact ⟨hout, hjoined, hagain.2.2⟩

end CqlGateway.Execution

import CqlGateway.Proofs.Statement.Query

/-!
# Expressions read back from their documents

Every tidy expression is read back from its document, with the star in the place of columns called
`*`, and so is every tidy query.
-/

namespace CqlGateway

open Node Reading
open Term (blank)

variable {e : Expr} {q : Select}

namespace Expr

/-- A term is read back from its document if it is read from any members that describe it. -/
theorem isRecovered_of {t : Term} {left right operand query : Node} {args items : List Node}
    (h : (Expr.of t).HasTranscript (.object (given (t.entries left right operand args items query))))
    (kind : TermKind) (hkind : t.kind = kind) (hknown : kind ∈ TermKind.known)
    (hvalue : t.value.IsPlain)
    (hread : ∀ f ms, t.Describes ((presentNode left).map (arranged f))
      ((presentNode right).map (arranged f)) ((presentNode operand).map (arranged f))
      (args.map (arranged f)) (items.map (arranged f))
      ((presentNode query).map (arranged (f.inside (isQueryType kind.name)))) ms →
      Expr.read (.object ms) = .ok (Expr.of t).starred) :
  (Expr.of t).IsRecovered (.object (given (t.entries left right operand args items query)))
  := by
  subst hkind
  refine ⟨h, rfl, fun f => ?_⟩
  obtain ⟨ms, hms, hdescribes⟩ := t.describes_arranged hknown hvalue h.document f
  rw [hms]
  exact hread f ms hdescribes

theorem IsRecovered.presentNode_eq {n : Node} (h : e.IsRecovered n) :
  presentNode n = some n
  := by
  unfold presentNode
  rw [h.isNull]
  rfl

theorem readAll_arranged {es : List Expr} {ns : List Node} (h : List.Forall₂ IsRecovered es ns)
    (f : Form) :
  Expr.readAll (ns.map (arranged f)) = .ok (es.map Expr.starred)
  := by
  induction h with
  | nil => rfl
  | cons he _ ih =>
    rw [List.map_cons, Expr.readAll, he.read f, ih]
    rfl

end Expr

/-! ### Terms without parts -/

/-- Terms that have no expressions and no query in them. -/
structure Term.IsLeaf (t : Term) : Prop where
  left : t.left = .missing
  right : t.right = .missing
  operand : t.operand = .missing
  args : t.args = []
  items : t.items = []
  query : t.query = none
  value : t.value.IsPlain
  steady : t.value.IsSteady false

namespace Expr

theorem hasTranscript_leaf {t : Term} (h : t.IsLeaf) (hstar : ¬ (t.kind = .column ∧ t.column = "*")) :
  (Expr.of t).HasTranscript (.object (given (t.entries .null .null .null [] [] .null)))
  := by
  apply hasTranscript_of _ _ _ h.value h.steady _ _ _ (.inl rfl) hstar
  · exact h.left ▸ hasTranscript_missing
  · exact h.right ▸ hasTranscript_missing
  · exact h.operand ▸ hasTranscript_missing
  · exact h.args ▸ .nil
  · exact h.items ▸ .nil
  · exact h.query ▸ Select.hasTranscript_none

theorem hasTranscript_star :
  Expr.star.HasTranscript (.object (given ((blank .star).entries .null .null .null [] [] .null)))
  := by
  apply hasTranscript_leaf ⟨rfl, rfl, rfl, rfl, rfl, rfl, .null, .null false⟩
  decide

/-- A column called `*` has the transcript of a column, and the star in its place is as deep. -/
theorem hasTranscript_column (table column : String) :
  (Expr.of { blank .column with table := table, column := column }).HasTranscript
    (.object (given (({ blank .column with table := table, column := column } : Term).entries
      .null .null .null [] [] .null)))
  := by
  by_cases hstar : column = "*"
  · refine ⟨Term.writtenAs_entries hasTranscript_missing hasTranscript_missing hasTranscript_missing
      .null .nil .nil Select.hasTranscript_none, Term.isDocument_entries hasTranscript_missing
      hasTranscript_missing hasTranscript_missing .null .nil .nil Select.hasTranscript_none,
      Term.isSteady_entries hasTranscript_missing hasTranscript_missing hasTranscript_missing
      .null (.null false) .nil .nil Select.hasTranscript_none (.inl rfl), ?_⟩
    have hstarred : (Expr.of { blank .column with table := table, column := column }).starred
        = .star := by
      rw [blank, starred, if_pos ⟨rfl, hstar⟩]
    rw [hstarred]
    refine ⟨_, hasTranscript_star.written, ?_⟩
    apply depth_given_congr
    simp [Term.entries, blank, depth]
  · apply hasTranscript_leaf ⟨rfl, rfl, rfl, rfl, rfl, rfl, .null, .null false⟩
    exact fun h => hstar h.2

theorem isRecovered_leaf {t : Term} (h : t.IsLeaf) (kind : TermKind) (hkind : t.kind = kind)
    (hknown : kind ∈ TermKind.known) (hcolumn : kind ≠ .column)
    (hread : ∀ ms, t.Describes none none none [] [] none ms →
      Expr.read (.object ms) = .ok (Expr.of t)) :
  ∃ n, (Expr.of t).IsRecovered n
  := by
  have hstar : ¬ (t.kind = .column ∧ t.column = "*") := by
    intro hstar
    exact hcolumn (hkind ▸ hstar.1)
  have hstarred : (Expr.of t).starred = .of t := by
    rw [starred_of hstar, h.left, h.right, h.operand, h.args, h.items, h.query]
    obtain ⟨⟩ := t
    obtain ⟨rfl, rfl, rfl, rfl, rfl, rfl, -, -⟩ := h
    rfl
  refine ⟨_, isRecovered_of (hasTranscript_leaf h hstar) kind hkind hknown h.value ?_⟩
  intro f ms hms
  rw [hstarred]
  exact hread ms hms

theorem isRecovered_text (s : String) :
  ∃ n, (Expr.text s).IsRecovered n
  := by
  apply isRecovered_leaf ⟨rfl, rfl, rfl, rfl, rfl, rfl, .text s, .text false s⟩ .text rfl
    (by decide) (by decide)
  intro ms hms
  exact hms.read_text rfl rfl

theorem isRecovered_number (literal : String) :
  ∃ n, (Expr.number literal).IsRecovered n
  := by
  apply isRecovered_leaf ⟨rfl, rfl, rfl, rfl, rfl, rfl, .text literal, .text false literal⟩ .number
    rfl (by decide) (by decide)
  intro ms hms
  exact hms.read_number rfl rfl

theorem isRecovered_bool (b : Bool) :
  ∃ n, (Expr.bool b).IsRecovered n
  := by
  apply isRecovered_leaf ⟨rfl, rfl, rfl, rfl, rfl, rfl, .bool b, .bool false b⟩ .bool rfl
    (by decide) (by decide)
  intro ms hms
  exact hms.read_bool rfl rfl

theorem isRecovered_null :
  ∃ n, Expr.null.IsRecovered n
  := by
  apply isRecovered_leaf ⟨rfl, rfl, rfl, rfl, rfl, rfl, .null, .null false⟩ .null rfl (by decide)
    (by decide)
  intro ms hms
  exact hms.read_null rfl

theorem isRecovered_star :
  ∃ n, Expr.star.IsRecovered n
  := by
  apply isRecovered_leaf ⟨rfl, rfl, rfl, rfl, rfl, rfl, .null, .null false⟩ .star rfl (by decide)
    (by decide)
  intro ms hms
  exact hms.read_star rfl

theorem isRecovered_param (name : String) :
  ∃ n, (Expr.of { blank .param with name := name }).IsRecovered n
  := by
  apply isRecovered_leaf ⟨rfl, rfl, rfl, rfl, rfl, rfl, .null, .null false⟩ .param rfl (by decide)
    (by decide)
  intro ms hms
  exact hms.read_param rfl rfl

theorem isRecovered_emptySubquery :
  ∃ n, (Expr.of (blank .subquery)).IsRecovered n
  := by
  apply isRecovered_leaf ⟨rfl, rfl, rfl, rfl, rfl, rfl, .null, .null false⟩ .subquery rfl
    (by decide) (by decide)
  intro ms hms
  exact hms.read_subquery rfl

theorem isRecovered_column (table column : String) :
  ∃ n, (Expr.of { blank .column with table := table, column := column }).IsRecovered n
  := by
  refine ⟨_, isRecovered_of (hasTranscript_column table column) .column rfl (by decide) .null ?_⟩
  intro f ms hms
  rw [hms.read_column rfl, blank, starred]
  by_cases hstar : column = "*"
  · rw [if_pos hstar, if_pos ⟨rfl, hstar⟩]
  · rw [if_neg hstar, if_neg fun h => hstar h.2]
    rfl

/-! ### Terms with parts -/

theorem isRecovered_binary (operator : String) {left right : Expr} (hleft : ∃ n, left.IsRecovered n)
    (hright : ∃ n, right.IsRecovered n) :
  ∃ n, (Expr.binary operator left right).IsRecovered n
  := by
  obtain ⟨l, hl⟩ := hleft
  obtain ⟨r, hr⟩ := hright
  have htranscript := hasTranscript_of
    (t := { blank .binary with operator := operator, left := left, right := right })
    hl.toHasTranscript hr.toHasTranscript hasTranscript_missing .null (.null false) .nil .nil
    Select.hasTranscript_none (.inl rfl) (by simp [blank])
  refine ⟨_, isRecovered_of htranscript .binary rfl (by decide) .null ?_⟩
  intro f ms hms
  rw [hl.presentNode_eq, hr.presentNode_eq] at hms
  rw [hms.read_binary rfl rfl rfl (hl.read f) (hr.read f)]
  rfl

theorem isRecovered_unary (operator : String) {operand : Expr}
    (hoperand : ∃ n, operand.IsRecovered n) :
  ∃ n, (Expr.unary operator operand).IsRecovered n
  := by
  obtain ⟨n, hn⟩ := hoperand
  have htranscript := hasTranscript_of
    (t := { blank .unary with operator := operator, operand := operand })
    hasTranscript_missing hasTranscript_missing hn.toHasTranscript .null (.null false) .nil .nil
    Select.hasTranscript_none (.inl rfl) (by simp [blank])
  refine ⟨_, isRecovered_of htranscript .unary rfl (by decide) .null ?_⟩
  intro f ms hms
  rw [hn.presentNode_eq] at hms
  rw [hms.read_unary rfl rfl (hn.read f)]
  rfl

theorem isRecovered_call {kind : TermKind} (hkind : kind = .function ∨ kind = .aggregate)
    (name : String) {args : List Expr} (hargs : ∀ e ∈ args, ∃ n, e.IsRecovered n)
    (distinct : Bool) :
  ∃ n, (Expr.of { blank kind with name := name, args := args, distinct := distinct
    }).IsRecovered n
  := by
  obtain ⟨ns, hns⟩ := exists_forall₂ hargs
  have hknown : kind ∈ TermKind.known := by
    rcases hkind with rfl | rfl <;> decide
  have hcolumn : kind ≠ .column := by
    rcases hkind with rfl | rfl <;> decide
  have htranscript := hasTranscript_of
    (t := { blank kind with name := name, args := args, distinct := distinct })
    hasTranscript_missing hasTranscript_missing hasTranscript_missing .null (.null false)
    (hns.imp fun _ _ h => h.toHasTranscript) .nil Select.hasTranscript_none (.inl rfl)
    (fun h => hcolumn h.1)
  refine ⟨_, isRecovered_of htranscript kind rfl hknown .null ?_⟩
  intro f ms hms
  rw [hms.read_call hkind (readAll_arranged hns f), starred_of fun h => hcolumn h.1]
  rfl

theorem isRecovered_list {items : List Expr} (hitems : ∀ e ∈ items, ∃ n, e.IsRecovered n) :
  ∃ n, (Expr.list items).IsRecovered n
  := by
  obtain ⟨ns, hns⟩ := exists_forall₂ hitems
  have htranscript := hasTranscript_of (t := { blank .list with items := items })
    hasTranscript_missing hasTranscript_missing hasTranscript_missing .null (.null false) .nil
    (hns.imp fun _ _ h => h.toHasTranscript) Select.hasTranscript_none (.inl rfl)
    (by simp [blank])
  refine ⟨_, isRecovered_of htranscript .list rfl (by decide) .null ?_⟩
  intro f ms hms
  rw [hms.read_list rfl rfl (readAll_arranged hns f), Expr.list, starred_of (by simp [blank])]
  rfl

/-- The query of a subquery is read in its sorted form. -/
theorem isRecovered_ofQuery (hq : ∃ n, q.IsRecovered n) :
  ∃ n, (Expr.ofQuery q).IsRecovered n
  := by
  obtain ⟨n, hn⟩ := hq
  have htranscript := hasTranscript_of (t := { blank .subquery with query := some q })
    hasTranscript_missing hasTranscript_missing hasTranscript_missing .null (.null false) .nil .nil
    hn.toHasTranscript (.inr rfl) (by simp [blank])
  refine ⟨_, isRecovered_of htranscript .subquery rfl (by decide) .null ?_⟩
  intro f ms hms
  have hpresent : presentNode n = some n := by
    unfold presentNode
    rw [hn.isNull]
    rfl
  have hresult := gives_iff_result.mp (hn.gives .sorted)
  rw [hms.read_subquery rfl, hpresent, Option.map_some, Option.bind_some]
  rw [show Form.inside f (isQueryType TermKind.subquery.name) = .sorted from rfl, hresult]
  rfl

end Expr

/-! ### Tidy expressions and queries -/

theorem Expr.exists_fitsPlace (h : e.isPresent = true → ∃ n, e.IsRecovered n) :
  ∃ n, e.FitsPlace n
  := by
  cases e with
  | missing => exact ⟨.null, fitsPlace_missing⟩
  | of t =>
    obtain ⟨n, hn⟩ := h rfl
    exact ⟨n, hn.fitsPlace⟩

theorem Select.exists_fitsPlace {q? : Option Select} (h : ∀ q, q? = some q → ∃ n, q.IsRecovered n) :
  ∃ n, Select.FitsPlace q? n
  := by
  cases q? with
  | none => exact ⟨.null, fitsPlace_none⟩
  | some q =>
    obtain ⟨n, hn⟩ := h q rfl
    exact ⟨n, hn.fitsPlace⟩

/-- The parts of a query are read back if its expressions and its subqueries are. -/
theorem Select.hasParts (hcolumns : ∀ c ∈ q.columns, ∃ n, c.expr.FitsPlace n)
    (hon : ∀ r ∈ q.sources.getD [], ∃ n, r.on.FitsPlace n)
    (hsubqueries : ∀ r ∈ q.sources.getD [], ∃ n, Select.FitsPlace r.subquery n)
    (hfilter : ∃ n, q.filter.FitsPlace n) (hgroupBy : ∀ e ∈ q.groupBy, ∃ n, e.FitsPlace n)
    (hhaving : ∃ n, q.having.FitsPlace n) (horderBy : ∀ o ∈ q.orderBy, ∃ n, o.expr.FitsPlace n)
    (hlimit : q.limit.IsPlain) (hoffset : q.offset.IsPlain) :
  q.HasParts
  := by
  have hcolumns' : ∀ c ∈ q.columns, ∃ n, c.IsRecovered n := by
    intro c hc
    obtain ⟨m, hm⟩ := hcolumns c hc
    exact ⟨_, m, hm, rfl⟩
  have horderBy' : ∀ o ∈ q.orderBy, ∃ n, o.IsRecovered n := by
    intro o ho
    obtain ⟨m, hm⟩ := horderBy o ho
    exact ⟨_, m, hm, rfl⟩
  have hsources : ∀ r ∈ q.sources.getD [], ∃ n, r.IsRecovered n := by
    intro r hr
    obtain ⟨on, hon⟩ := hon r hr
    obtain ⟨subquery, hsubquery⟩ := hsubqueries r hr
    exact ⟨_, on, subquery, hon, hsubquery, rfl⟩
  obtain ⟨columns, hcolumns⟩ := exists_forall₂ hcolumns'
  obtain ⟨sources, hsources⟩ := Lists.exists_of_forall hsources
  obtain ⟨filter, hfilter⟩ := hfilter
  obtain ⟨groupBy, hgroupBy⟩ := exists_forall₂ hgroupBy
  obtain ⟨having, hhaving⟩ := hhaving
  obtain ⟨orderBy, horderBy⟩ := exists_forall₂ horderBy'
  exact ⟨columns, sources, filter, groupBy, having, orderBy,
    ⟨hcolumns, hsources, hfilter, hgroupBy, hhaving, horderBy, hlimit, hoffset⟩⟩

/-- The induction is on the tidy expression. A query is also read on its own, as a source or as a
part of a statement, so the claim is about the query and not only about the subquery. -/
theorem Expr.IsTidy.exists_isRecovered (h : e.IsTidy) :
  (∃ n, e.IsRecovered n) ∧ ∀ q, e = .ofQuery q → q.HasParts
  := by
  induction h with
  | text s => exact ⟨isRecovered_text s, nofun⟩
  | number literal => exact ⟨isRecovered_number literal, nofun⟩
  | bool b => exact ⟨isRecovered_bool b, nofun⟩
  | null => exact ⟨isRecovered_null, nofun⟩
  | star => exact ⟨isRecovered_star, nofun⟩
  | param name => exact ⟨isRecovered_param name, nofun⟩
  | column table column => exact ⟨isRecovered_column table column, nofun⟩
  | binary operator _ _ ihleft ihright =>
    exact ⟨isRecovered_binary operator ihleft.1 ihright.1, nofun⟩
  | unary operator _ ihoperand => exact ⟨isRecovered_unary operator ihoperand.1, nofun⟩
  | call hkind name _ distinct ihargs =>
    refine ⟨isRecovered_call hkind name (fun e he => (ihargs e he).1) distinct, ?_⟩
    rcases hkind with rfl | rfl <;> exact nofun
  | list _ ihitems => exact ⟨isRecovered_list fun e he => (ihitems e he).1, nofun⟩
  | emptySubquery => exact ⟨isRecovered_emptySubquery, nofun⟩
  | query _ _ _ _ _ _ _ hlimit hoffset ihcolumns ihon ihsubqueries ihfilter ihgroupBy ihhaving
      ihorderBy =>
      have hq := Select.hasParts
        (fun c hc => exists_fitsPlace fun hpresent => (ihcolumns c hc hpresent).1)
        (fun r hr => exists_fitsPlace fun hpresent => (ihon r hr hpresent).1)
        (fun r hr => Select.exists_fitsPlace fun p hp =>
          ((ihsubqueries r hr p hp).2 p rfl).exists_isRecovered)
        (exists_fitsPlace fun hpresent => (ihfilter hpresent).1)
        (fun e he => exists_fitsPlace fun hpresent => (ihgroupBy e he hpresent).1)
        (exists_fitsPlace fun hpresent => (ihhaving hpresent).1)
        (fun o ho => exists_fitsPlace fun hpresent => (ihorderBy o ho hpresent).1) hlimit hoffset
      refine ⟨isRecovered_ofQuery hq.exists_isRecovered, ?_⟩
      rintro p ⟨⟩
      exact hq

theorem Expr.IsTidySlot.exists_fitsPlace (h : e.IsTidySlot) :
  ∃ n, e.FitsPlace n
  := by
  apply Expr.exists_fitsPlace
  intro hpresent
  exact (h hpresent).exists_isRecovered.1

theorem Select.IsTidy.hasParts (h : q.IsTidy) :
  q.HasParts
  := h.ofQuery.exists_isRecovered.2 q rfl

end CqlGateway

import CqlGateway.Proofs.Statement.Recovery

/-!
# Queries read back from their documents

If the expressions of a query are read back from their documents, then so are its columns, its
criteria and its sources, and therefore the query.
-/

namespace CqlGateway

open Node Reading

variable {n : Node} {c : SelectColumn} {ns : List Node} {o : OrderItem} {r : TableRef}

/-! ### Places of expressions and queries -/

theorem Node.IsDocument.isNull_arranged (h : n.IsDocument) (f : Form) :
  (n.arranged f).isNull = n.isNull
  := by
  cases h <;> cases f <;> rfl

/-- The place of an expression is filled from its transcript. -/
structure Expr.FitsPlace (e : Expr) (n : Node) : Prop extends e.HasTranscript n where
  gives : ∀ f, (Expr.readSlot .missing (n.arranged f)).Gives e.starred

/-- The place of a query is filled from its transcript. -/
structure Select.FitsPlace (q? : Option Select) (n : Node) : Prop
    extends Select.HasTranscript q? n where
  gives : ∀ f, (Select.slot (n.arranged f) (Select.read Select.blank (n.arranged f))).Gives
    (Select.starredOption q?)

theorem Expr.fitsPlace_missing :
  Expr.missing.FitsPlace .null
  where
  toHasTranscript := hasTranscript_missing
  gives f := by
    rw [arranged_null]
    exact gives_pure Expr.missing

theorem Select.fitsPlace_none :
  Select.FitsPlace none .null
  where
  toHasTranscript := hasTranscript_none
  gives f := by
    rw [arranged_null]
    exact gives_pure none

/-- An expression is read back from its transcript. -/
structure Expr.IsRecovered (e : Expr) (n : Node) : Prop extends e.HasTranscript n where
  isNull : n.isNull = false
  read : ∀ f, Expr.read (n.arranged f) = .ok e.starred

/-- A query is read back from its transcript. -/
structure Select.IsRecovered (q : Select) (n : Node) : Prop
    extends Select.HasTranscript (some q) n where
  isNull : n.isNull = false
  gives : ∀ f, (Select.read Select.blank (n.arranged f)).Gives q.starred

theorem Expr.IsRecovered.fitsPlace {e : Expr} (h : e.IsRecovered n) :
  e.FitsPlace n
  where
  toHasTranscript := h.toHasTranscript
  gives f := by
    unfold Expr.readSlot Expr.slot
    rw [h.document.isNull_arranged f, h.isNull, h.read f]
    exact gives_pure e.starred

theorem Select.IsRecovered.fitsPlace {q : Select} (h : q.IsRecovered n) :
  Select.FitsPlace (some q) n
  where
  toHasTranscript := h.toHasTranscript
  gives f := by
    unfold Select.slot
    rw [h.document.isNull_arranged f, h.isNull]
    exact (h.gives f).map some

theorem Expr.FitsPlace.recovers {e : Expr} (h : e.FitsPlace n) :
  Recovers false (Expr.readSlot .missing) e.starred n
  := ⟨h.document, h.steady, h.gives⟩

theorem Select.FitsPlace.recovers {q? : Option Select} (h : Select.FitsPlace q? n) :
  Recovers true (fun n => Select.slot n (Select.read Select.blank n)) (Select.starredOption q?) n
  := ⟨h.document, h.steady, h.gives⟩

/-- A place whose member is left out when it is null stays blank if null makes it blank. -/
theorem Node.Recovers.holds_presentNode {β : Type} {record : Bool} {read : Node → Reading β}
    {blank v : β} (h : Recovers record read v n) (hblank : (read .null).Gives blank) {name : String}
    (hname : accumulates (!record) name = false) :
  Holds name read blank v (presentNode n)
  := by
  cases n with
  | null =>
    refine ⟨nofun, fun f => ?_⟩
    have hv := h.gives f
    rw [arranged_null] at hv
    exact congrArg Prod.fst (hv.symm.trans hblank)
  | _ => exact h.holds hname blank

theorem Expr.FitsPlace.holds {e : Expr} (h : e.FitsPlace n) (name : String)
    (hname : accumulates true name = false) :
  Holds name (Expr.readSlot .missing) .missing e.starred (presentNode n)
  := h.recovers.holds_presentNode (gives_pure Expr.missing) hname

theorem Select.FitsPlace.holds {q? : Option Select} (h : Select.FitsPlace q? n) (name : String)
    (hname : accumulates false name = false) :
  Holds name (fun n => Select.slot n (Select.read Select.blank n)) none (Select.starredOption q?)
    (presentNode n)
  := h.recovers.holds_presentNode (gives_pure none) hname

/-! ### Columns and criteria -/

/-- A column of a query is read back from its document. -/
def SelectColumn.IsRecovered (c : SelectColumn) (n : Node) : Prop :=
  ∃ m, c.expr.FitsPlace m ∧ c.document m = n

/-- A criterion of an ordering is read back from its document. -/
def OrderItem.IsRecovered (o : OrderItem) (n : Node) : Prop :=
  ∃ m, o.expr.FitsPlace m ∧ o.document m = n

theorem SelectColumn.IsRecovered.recovers (h : c.IsRecovered n) :
  Recovers true (SelectColumn.read ⟨.missing, ""⟩) c.starred n
  := by
  obtain ⟨m, hm, rfl⟩ := h
  have hexpr : Holds "expr" (Expr.readSlot .missing) .missing c.expr.starred (some m) :=
    hm.recovers.holds (by decide) .missing
  have halias := holds_presentText "alias" "" c.label
  rw [funext (SelectColumn.read_eq ⟨.missing, ""⟩)]
  refine recovers_record ["expr", "alias"] [1, 0] rfl (by decide) (by decide) ?_ ?_
  · exact .slot rfl hexpr rfl
      (.slot rfl halias rfl (.nil _))
  · exact .slot rfl halias rfl
      (.slot rfl hexpr rfl (.nil _))

theorem SelectColumn.IsRecovered.written (h : c.IsRecovered n) :
  c.WrittenAs n
  := by
  obtain ⟨m, hm, rfl⟩ := h
  exact ⟨m, hm.written, rfl⟩

theorem OrderItem.IsRecovered.written (h : o.IsRecovered n) :
  o.WrittenAs n
  := by
  obtain ⟨m, hm, rfl⟩ := h
  exact ⟨m, hm.written, rfl⟩

theorem OrderItem.IsRecovered.recovers (h : o.IsRecovered n) :
  Recovers true (OrderItem.read ⟨.missing, false⟩) o.starred n
  := by
  obtain ⟨m, hm, rfl⟩ := h
  have hexpr : Holds "expr" (Expr.readSlot .missing) .missing o.expr.starred (some m) :=
    hm.recovers.holds (by decide) .missing
  have hdesc := holds_presentFlag "desc" false o.desc
  rw [funext (OrderItem.read_eq ⟨.missing, false⟩)]
  refine recovers_record ["expr", "desc"] [1, 0] rfl (by decide) (by decide) ?_ ?_
  · exact .slot rfl hexpr rfl
      (.slot rfl hdesc rfl (.nil _))
  · exact .slot rfl hdesc rfl
      (.slot rfl hexpr rfl (.nil _))

theorem SelectColumn.IsRecovered.starred (h : c.IsRecovered n) :
  ∃ m, c.starred.WrittenAs m ∧ m.depth = n.depth
  := by
  obtain ⟨e, he, rfl⟩ := h
  obtain ⟨e', he', hdepth⟩ := he.starred
  refine ⟨_, ⟨e', he', rfl⟩, ?_⟩
  apply depth_given_congr
  simp [hdepth, SelectColumn.starred]

theorem OrderItem.IsRecovered.starred (h : o.IsRecovered n) :
  ∃ m, o.starred.WrittenAs m ∧ m.depth = n.depth
  := by
  obtain ⟨e, he, rfl⟩ := h
  obtain ⟨e', he', hdepth⟩ := he.starred
  refine ⟨_, ⟨e', he', rfl⟩, ?_⟩
  apply depth_given_congr
  simp [hdepth, OrderItem.starred]

/-! ### Sources -/

/-- A source is read back from its document. -/
def TableRef.IsRecovered (r : TableRef) (n : Node) : Prop :=
  ∃ on subquery, r.on.FitsPlace on ∧ Select.FitsPlace r.subquery subquery
    ∧ .object (given (r.entries on subquery)) = n

theorem TableRef.fill_keyspace (r : TableRef) (n : Node) :
  r.fill "keyspace" n
    = Reading.text r.table.keyspace n >>= fun s => pure { r with table.keyspace := s }
  := rfl

theorem TableRef.fill_name (r : TableRef) (n : Node) :
  r.fill "name" n = Reading.text r.table.name n >>= fun s => pure { r with table.name := s }
  := rfl

theorem TableRef.IsRecovered.recovers (h : r.IsRecovered n) :
  Recovers true (TableRef.read TableRef.blank) r.starred n
  := by
  obtain ⟨on, subquery, hon, hsubquery, rfl⟩ := h
  have hkeyspace := holds_presentText "keyspace" "" r.table.keyspace
  have hname := holds_text "name" "" "" r.table.name
  have halias := holds_presentText "alias" "" r.label
  have hjoin := holds_presentText "join" "" r.join
  replace hon := hon.holds "on" (by decide)
  replace hsubquery := hsubquery.holds "subquery" (by decide)
  rw [funext (TableRef.read_eq TableRef.blank), TableRef.entries]
  refine recovers_record ["keyspace", "name", "alias", "join", "on", "subquery"] [2, 3, 0, 1, 4, 5]
    rfl (by decide) (by decide) ?_ ?_
  · exact .cons (fill_keyspace _) hkeyspace rfl <|
      .cons (fill_name _) hname rfl <|
      .slot rfl halias rfl <|
      .slot rfl hjoin rfl <|
      .slot rfl hon rfl <|
      .slot rfl hsubquery rfl (.nil _)
  · exact .slot rfl halias rfl <|
      .slot rfl hjoin rfl <|
      .cons (fill_keyspace _) hkeyspace rfl <|
      .cons (fill_name _) hname rfl <|
      .slot rfl hon rfl <|
      .slot rfl hsubquery rfl (.nil _)

theorem TableRef.IsRecovered.written (h : r.IsRecovered n) :
  r.WrittenAs n
  := by
  obtain ⟨on, subquery, hon, hsubquery, rfl⟩ := h
  exact ⟨on, subquery, hon.written, hsubquery.written, rfl⟩

theorem TableRef.IsRecovered.starred (h : r.IsRecovered n) :
  ∃ m, r.starred.WrittenAs m ∧ m.depth = n.depth
  := by
  obtain ⟨on, subquery, hon, hsubquery, rfl⟩ := h
  obtain ⟨on', hon', don⟩ := hon.starred
  obtain ⟨subquery', hsubquery', dsubquery⟩ := hsubquery.starred
  refine ⟨_, ⟨on', subquery', hon', hsubquery', rfl⟩, ?_⟩
  apply depth_given_congr
  simp [TableRef.entries, don, dsubquery, TableRef.starred]

theorem TableRef.areWrittenAs_of_lists {rs? : Option (List TableRef)}
    (h : Lists TableRef.WrittenAs rs? n) :
  TableRef.AreWrittenAs rs? n
  := by
  cases h with
  | absent => exact ⟨.null, rfl, rfl⟩
  | present h =>
    obtain ⟨js, hjs, rfl, -⟩ := TableRef.listToJson?_of_forall₂ h
    refine ⟨.array js, ?_, rfl⟩
    simp [TableRef.optionToJson?, hjs]

theorem TableRef.recovers_sources {rs? : Option (List TableRef)}
    (h : Lists TableRef.IsRecovered rs? n) :
  Recovers true TableRef.readList (rs?.map (List.map TableRef.starred)) n
  := by
  rw [funext TableRef.readList_eq]
  apply Lists.recovers
  apply h.map
  intro r n hr
  exact hr.recovers

/-! ### Queries -/

theorem SelectColumn.holds_columns {cs : List SelectColumn}
    (h : List.Forall₂ SelectColumn.IsRecovered cs ns) :
  Holds "columns" SelectColumn.readList [] (cs.map SelectColumn.starred) (presentList ns)
  := by
  rw [funext SelectColumn.readList_eq]
  have hrecovers : List.Forall₂ (Recovers true (SelectColumn.read ⟨.missing, ""⟩)) (cs.map SelectColumn.starred) ns := by
    rw [List.forall₂_map_left_iff]
    exact h.imp fun _ _ h => h.recovers
  exact holds_presentList hrecovers (by decide)

theorem OrderItem.holds_orderBy {os : List OrderItem}
    (h : List.Forall₂ OrderItem.IsRecovered os ns) :
  Holds "order_by" OrderItem.readList [] (os.map OrderItem.starred) (presentList ns)
  := by
  rw [funext OrderItem.readList_eq]
  have hrecovers : List.Forall₂ (Recovers true (OrderItem.read ⟨.missing, false⟩)) (os.map OrderItem.starred) ns := by
    rw [List.forall₂_map_left_iff]
    exact h.imp fun _ _ h => h.recovers
  exact holds_presentList hrecovers (by decide)

theorem Expr.holds_groupBy {es : List Expr} (h : List.Forall₂ Expr.FitsPlace es ns) :
  Holds "group_by" Expr.readSlots [] (es.map Expr.starred) (presentList ns)
  := by
  rw [funext Expr.readSlots_eq]
  have hrecovers : List.Forall₂ (Recovers false (Expr.readSlot .missing)) (es.map Expr.starred) ns := by
    rw [List.forall₂_map_left_iff]
    exact h.imp fun _ _ h => h.recovers
  exact holds_presentList hrecovers (by decide)

/-- The parts of a query are read back from their documents. -/
structure Select.PartsRecovered (q : Select) (columns : List Node) (sources filter : Node)
    (groupBy : List Node) (having : Node) (orderBy : List Node) : Prop where
  columns : List.Forall₂ SelectColumn.IsRecovered q.columns columns
  sources : Lists TableRef.IsRecovered q.sources sources
  filter : q.filter.FitsPlace filter
  groupBy : List.Forall₂ Expr.FitsPlace q.groupBy groupBy
  having : q.having.FitsPlace having
  orderBy : List.Forall₂ OrderItem.IsRecovered q.orderBy orderBy
  limit : q.limit.IsPlain
  offset : q.offset.IsPlain

/-- The slots of a query are filled from the members of its document. -/
structure Select.Slots (q : Select) (columns : List Node) (sources filter : Node)
    (groupBy : List Node) (having : Node) (orderBy : List Node) : Prop where
  distinct : Holds "distinct" (flag false) false q.distinct (presentFlag q.distinct)
  columns : Holds "columns" SelectColumn.readList [] (q.columns.map SelectColumn.starred)
    (presentList columns)
  sources : Holds "from" TableRef.readList none (q.sources.map (List.map TableRef.starred))
    (some sources)
  filter : Holds "where" (Expr.readSlot .missing) .missing q.filter.starred (presentNode filter)
  groupBy : Holds "group_by" Expr.readSlots [] (q.groupBy.map Expr.starred) (presentList groupBy)
  having : Holds "having" (Expr.readSlot .missing) .missing q.having.starred (presentNode having)
  orderBy : Holds "order_by" OrderItem.readList [] (q.orderBy.map OrderItem.starred)
    (presentList orderBy)
  limit : Holds "limit" raw .null q.limit (presentNode q.limit)
  offset : Holds "offset" raw .null q.offset (presentNode q.offset)
  setOperation : Holds "set_op" (Reading.text "") "" q.setOperation (presentText q.setOperation)

namespace Select.PartsRecovered

variable {q : Select} {columns groupBy orderBy : List Node} {sources filter having : Node}
  (h : q.PartsRecovered columns sources filter groupBy having orderBy)

include h

theorem slots :
  q.Slots columns sources filter groupBy having orderBy
  where
  distinct := holds_presentFlag "distinct" false q.distinct
  columns := SelectColumn.holds_columns h.columns
  sources := (TableRef.recovers_sources h.sources).holds (by decide) none
  filter := h.filter.holds "where" (by decide)
  groupBy := Expr.holds_groupBy h.groupBy
  having := h.having.holds "having" (by decide)
  orderBy := OrderItem.holds_orderBy h.orderBy
  limit := holds_raw "limit" (by decide) h.limit
  offset := holds_raw "offset" (by decide) h.offset
  setOperation := holds_presentText "set_op" "" q.setOperation

theorem recovers :
  Recovers true (Select.read Select.blank) q.starred
    (.object (given (q.entries columns sources filter groupBy having orderBy)))
  := by
  have hslots := h.slots
  rw [funext (Select.read_eq Select.blank), Select.starred_eq]
  refine recovers_record ["distinct", "columns", "from", "where", "group_by", "having", "order_by",
    "limit", "offset", "set_op"] [1, 0, 2, 4, 5, 7, 8, 6, 9, 3] rfl (by decide) (by decide) ?_ ?_
  · exact .slot rfl hslots.distinct rfl <|
      .slot rfl hslots.columns rfl <|
      .slot rfl hslots.sources rfl <|
      .slot rfl hslots.filter rfl <|
      .slot rfl hslots.groupBy rfl <|
      .slot rfl hslots.having rfl <|
      .slot rfl hslots.orderBy rfl <|
      .slot rfl hslots.limit rfl <|
      .slot rfl hslots.offset rfl <|
      .slot rfl hslots.setOperation rfl (.nil _)
  · exact .slot rfl hslots.columns rfl <|
      .slot rfl hslots.distinct rfl <|
      .slot rfl hslots.sources rfl <|
      .slot rfl hslots.groupBy rfl <|
      .slot rfl hslots.having rfl <|
      .slot rfl hslots.limit rfl <|
      .slot rfl hslots.offset rfl <|
      .slot rfl hslots.orderBy rfl <|
      .slot rfl hslots.setOperation rfl <|
      .slot rfl hslots.filter rfl (.nil _)

theorem written :
  Select.WrittenAs (some q)
    (.object (given (q.entries columns sources filter groupBy having orderBy)))
  := by
  have hsources := TableRef.areWrittenAs_of_lists (h.sources.imp fun _ _ h => h.written)
  apply Select.writtenAs _ hsources h.filter.written _ h.having.written _ h.limit h.offset
  · exact h.columns.imp fun _ _ h => h.written
  · exact h.groupBy.imp fun _ _ h => h.written
  · exact h.orderBy.imp fun _ _ h => h.written

/-- The document with the star in the place of columns called `*` has members of the same depth. -/
theorem starred :
  ∃ columns' sources' filter' groupBy' having' orderBy',
    Select.WrittenAs (some q.starred)
      (.object (given (q.starred.entries columns' sources' filter' groupBy' having' orderBy')))
    ∧ ((q.starred.entries columns' sources' filter' groupBy' having' orderBy').map fun e =>
        (e.1, memberDepth e.2))
      = (q.entries columns sources filter groupBy having orderBy).map fun e =>
        (e.1, memberDepth e.2)
  := by
  obtain ⟨columns', hcolumns', dcolumns⟩ :=
    exists_starred_of_forall₂ (fun _ _ h => h.starred) h.columns
  obtain ⟨sources', hsources', dsources⟩ := h.sources.exists_starred fun _ _ h => h.starred
  obtain ⟨filter', hfilter', dfilter⟩ := h.filter.starred
  obtain ⟨groupBy', hgroupBy', dgroupBy⟩ :=
    exists_starred_of_forall₂ (fun _ _ h => h.starred) h.groupBy
  obtain ⟨having', hhaving', dhaving⟩ := h.having.starred
  obtain ⟨orderBy', horderBy', dorderBy⟩ :=
    exists_starred_of_forall₂ (fun _ _ h => h.starred) h.orderBy
  rw [Select.starred_eq]
  refine ⟨columns', sources', filter', groupBy', having', orderBy', Select.writtenAs hcolumns'
    (TableRef.areWrittenAs_of_lists hsources') hfilter' hgroupBy' hhaving' horderBy' h.limit
    h.offset, ?_⟩
  simp only [Select.entries, List.map_cons, memberDepth_presentNode, memberDepth_presentText,
    memberDepth_presentList, memberDepth_some, listDepth_congr dcolumns, dsources, dfilter,
    listDepth_congr dgroupBy, dhaving, listDepth_congr dorderBy]

theorem isRecovered :
  q.IsRecovered (.object (given (q.entries columns sources filter groupBy having orderBy)))
  := by
  refine ⟨⟨h.written, h.recovers.document, h.recovers.steady, ?_⟩, rfl, h.recovers.gives⟩
  obtain ⟨columns', sources', filter', groupBy', having', orderBy', hwritten, hdepth⟩ := h.starred
  rw [Select.starredOption]
  refine ⟨_, hwritten, ?_⟩
  apply depth_given_congr
  have hsnd := congrArg (List.map Prod.snd) hdepth
  simpa only [List.map_map, Function.comp_def] using hsnd

end Select.PartsRecovered

/-- The parts of a query are read back from some documents. -/
def Select.HasParts (q : Select) : Prop :=
  ∃ columns sources filter groupBy having orderBy,
    q.PartsRecovered columns sources filter groupBy having orderBy

theorem Select.HasParts.exists_isRecovered {q : Select} (h : q.HasParts) :
  ∃ n, q.IsRecovered n
  := by
  obtain ⟨columns, sources, filter, groupBy, having, orderBy, h⟩ := h
  exact ⟨_, h.isRecovered⟩

end CqlGateway

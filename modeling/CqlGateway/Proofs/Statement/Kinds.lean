import CqlGateway.Proofs.Statement.Envelope

/-!
# Every kind of statement read back

For each kind of statement, the members of its document fill its slots. So every tidy statement is
read back from its document, with the star in the place of columns called `*`.
-/

namespace CqlGateway

open Node Reading
open Statement (HasMembers alterKeyspace alterTable createIndex createKeyspace createTable
  createView describe dropIndex dropKeyspace dropTable dropView isRecovered_of members?
  truncateTable withKind)
open TableName (ofJson_toJson)

theorem Node.ofMembers_pair (name key : String) (j k : Json) :
  ofMembers [(name, j), (key, k)] = given [(name, some (ofJson j)), (key, some (ofJson k))]
  := rfl

theorem TableName.holds (t : TableName) (name : String) (hname : accumulates false name = false) :
  Holds name (TableName.read {}) {} t (some t.document)
  := t.recovers.holds hname {}

/-! ### Keyspaces -/

theorem CreateKeyspace.exists_isRecovered {s : CreateKeyspace} (h : AscendingMembers s.options) :
  ∃ n, (createKeyspace s).IsRecovered n
  := by
  have hname := holds_text "name" "" "" s.name
  have hexists := holds_presentFlag "if_not_exists" false s.ifNotExists
  have hoptions := holds_options h
  have hmembers : (createKeyspace s).HasMembers [("name", some (.text s.name)),
      ("if_not_exists", presentFlag s.ifNotExists), ("options", presentOptions s.options)] := by
    refine ⟨_, rfl, ?_⟩
    simp only [ofMembers_append, ofMembers_single, ofMembers_flagMember, ofMembers_optionsMember,
      ← given_append]
    rfl
  refine isRecovered_of ["name", "if_not_exists", "options"] [2, 0, 1, 3] hmembers hmembers
    (fun _ => rfl) rfl rfl (by decide) (by decide) rfl ?_
  exact .slot rfl hexists rfl <|
    .ignore (fun _ => rfl) <|
    .slot rfl hname rfl <|
    .slot rfl hoptions rfl (.nil _)

theorem AlterKeyspace.exists_isRecovered {s : AlterKeyspace} (h : AscendingMembers s.options) :
  ∃ n, (alterKeyspace s).IsRecovered n
  := by
  have hname := holds_text "name" "" "" s.name
  have hoptions := holds_options h
  have hmembers : (alterKeyspace s).HasMembers [("name", some (.text s.name)),
      ("options", presentOptions s.options)] := by
    refine ⟨_, rfl, ?_⟩
    simp only [ofMembers_append, ofMembers_single, ofMembers_optionsMember, ← given_append]
    rfl
  refine isRecovered_of ["name", "options"] [0, 1, 2] hmembers hmembers (fun _ => rfl) rfl rfl
    (by decide) (by decide) rfl ?_
  exact .ignore (fun _ => rfl) <|
    .slot rfl hname rfl <|
    .slot rfl hoptions rfl (.nil _)

theorem DropKeyspace.exists_isRecovered (s : DropKeyspace) :
  ∃ n, (dropKeyspace s).IsRecovered n
  := by
  have hname := holds_text "name" "" "" s.name
  have hexists := holds_presentFlag "if_exists" false s.ifExists
  have hmembers : (dropKeyspace s).HasMembers [("name", some (.text s.name)),
      ("if_exists", presentFlag s.ifExists)] := by
    refine ⟨_, rfl, ?_⟩
    simp only [ofMembers_append, ofMembers_single, ofMembers_flagMember, ← given_append]
    rfl
  refine isRecovered_of ["name", "if_exists"] [2, 0, 1] hmembers hmembers (fun _ => rfl) rfl rfl
    (by decide) (by decide) rfl ?_
  exact .slot rfl hexists rfl <|
    .ignore (fun _ => rfl) <|
    .slot rfl hname rfl (.nil _)

theorem Use.exists_isRecovered (s : Use) :
  ∃ n, (Statement.use s).IsRecovered n
  := by
  have hkeyspace := holds_text "keyspace" "" "" s.keyspace
  have hmembers : (Statement.use s).HasMembers [("keyspace", some (.text s.keyspace))] :=
    ⟨_, rfl, rfl⟩
  refine isRecovered_of ["keyspace"] [1, 0] hmembers hmembers (fun _ => rfl) rfl rfl (by decide)
    (by decide) rfl ?_
  exact .slot rfl hkeyspace rfl <|
    .ignore (fun _ => rfl) (.nil _)

theorem Describe.exists_isRecovered (s : Describe) :
  ∃ n, (describe s).IsRecovered n
  := by
  have hobject := holds_text "object" "" "" s.object
  have htable := s.table.holds "table" (by decide)
  have hmembers : (describe s).HasMembers [("object", some (.text s.object)),
      ("table", some s.table.document)] := by
    refine ⟨_, rfl, ?_⟩
    rw [ofMembers_pair, s.table.ofJson_toJson]
    rfl
  refine isRecovered_of ["object", "table"] [0, 1, 2] hmembers hmembers (fun _ => rfl) rfl rfl
    (by decide) (by decide) rfl ?_
  exact .ignore (fun _ => rfl) <|
    .slot rfl hobject rfl <|
    .slot rfl htable rfl (.nil _)

/-! ### Tables -/

theorem CreateTable.exists_isRecovered {s : CreateTable}
    (h : ∀ c ∈ s.columns.getD [], c.IsTidy) :
  ∃ n, (createTable s).IsRecovered n
  := by
  have hlists : ∀ c ∈ s.columns.getD [], ∃ n, ofJson c.toJson = n
      ∧ Recovers true (Column.read {}) c n := by
    intro c hc
    exact ⟨_, c.ofJson_toJson, Column.recovers (h c hc)⟩
  obtain ⟨columns, hlists⟩ := Lists.exists_of_forall hlists
  have htable := s.table.holds "table" (by decide)
  have hexists := holds_presentFlag "if_not_exists" false s.ifNotExists
  have hcolumns : Holds "columns" (optionalList Column.read {}) none s.columns (some columns) :=
    (Lists.recovers (hlists.imp fun _ _ h => h.2)).holds (by decide) none
  have hprimary : Holds "primary_key" Reading.texts [] s.primaryKey _ := holds_texts (by decide) _
  have hmembers : (createTable s).HasMembers [("table", some s.table.document),
      ("if_not_exists", presentFlag s.ifNotExists), ("columns", some columns),
      ("primary_key", presentList (s.primaryKey.map .text))] := by
    refine ⟨_, rfl, ?_⟩
    simp only [ofMembers_append, ofMembers_single, ofMembers_flagMember, ofMembers_listMember,
      ofItems_map_text, ofJson_toJson, Lists.optionalArray (hlists.imp fun _ _ h => h.1),
      ← given_append]
    rfl
  refine isRecovered_of ["table", "if_not_exists", "columns", "primary_key"] [3, 2, 0, 4, 1]
    hmembers hmembers (fun _ => rfl) rfl rfl (by decide) (by decide) rfl ?_
  exact .slot rfl hcolumns rfl <|
    .slot rfl hexists rfl <|
    .ignore (fun _ => rfl) <|
    .slot rfl hprimary rfl <|
    .slot rfl htable rfl (.nil _)

theorem AlterTable.exists_isRecovered {s : AlterTable}
    (h : ∀ spec ∈ s.specs.getD [], spec.column.IsTidy) :
  ∃ n, (alterTable s).IsRecovered n
  := by
  have hlists : ∀ spec ∈ s.specs.getD [], ∃ n, ofJson spec.toJson = n
      ∧ Recovers true (record AlterSpec.fill {}) spec n := by
    intro spec hspec
    exact ⟨_, spec.ofJson_toJson, AlterSpec.recovers (h spec hspec)⟩
  obtain ⟨specs, hlists⟩ := Lists.exists_of_forall hlists
  have htable := s.table.holds "table" (by decide)
  have hspecs : Holds "specs" (optionalList (record AlterSpec.fill) {}) none s.specs (some specs) :=
    (Lists.recovers (hlists.imp fun _ _ h => h.2)).holds (by decide) none
  have hmembers : (alterTable s).HasMembers [("table", some s.table.document),
      ("specs", some specs)] := by
    refine ⟨_, rfl, ?_⟩
    rw [ofMembers_pair, ofJson_toJson, Lists.optionalArray (hlists.imp fun _ _ h => h.1)]
  refine isRecovered_of ["table", "specs"] [0, 2, 1] hmembers hmembers (fun _ => rfl) rfl rfl
    (by decide) (by decide) rfl ?_
  exact .ignore (fun _ => rfl) <|
    .slot rfl hspecs rfl <|
    .slot rfl htable rfl (.nil _)

theorem DropTable.exists_isRecovered (s : DropTable) :
  ∃ n, (dropTable s).IsRecovered n
  := by
  have hlists : ∀ t ∈ s.tables.getD [], ∃ n, ofJson t.toJson = n
      ∧ Recovers true (TableName.read {}) t n := by
    intro t _
    exact ⟨_, t.ofJson_toJson, t.recovers⟩
  obtain ⟨tables, hlists⟩ := Lists.exists_of_forall hlists
  have htables : Holds "tables" (optionalList TableName.read {}) none s.tables (some tables) :=
    (Lists.recovers (hlists.imp fun _ _ h => h.2)).holds (by decide) none
  have hexists := holds_presentFlag "if_exists" false s.ifExists
  have hmembers : (dropTable s).HasMembers [("tables", some tables),
      ("if_exists", presentFlag s.ifExists)] := by
    refine ⟨_, rfl, ?_⟩
    simp only [ofMembers_append, ofMembers_single, ofMembers_flagMember,
      Lists.optionalArray (hlists.imp fun _ _ h => h.1), ← given_append]
    rfl
  refine isRecovered_of ["tables", "if_exists"] [2, 0, 1] hmembers hmembers (fun _ => rfl) rfl rfl
    (by decide) (by decide) rfl ?_
  exact .slot rfl hexists rfl <|
    .ignore (fun _ => rfl) <|
    .slot rfl htables rfl (.nil _)

theorem TruncateTable.exists_isRecovered (s : TruncateTable) :
  ∃ n, (truncateTable s).IsRecovered n
  := by
  have htable := s.table.holds "table" (by decide)
  have hmembers : (truncateTable s).HasMembers [("table", some s.table.document)] := by
    refine ⟨_, rfl, ?_⟩
    rw [ofMembers_single, ofJson_toJson]
  refine isRecovered_of ["table"] [0, 1] hmembers hmembers (fun _ => rfl) rfl rfl (by decide)
    (by decide) rfl ?_
  exact .ignore (fun _ => rfl) <|
    .slot rfl htable rfl (.nil _)

/-! ### Indexes and views -/

/-- The members of a statement that creates an index, given the documents of its parts. -/
def CreateIndex.entries (s : CreateIndex) (columns filter : Node) : List (String × Option Node) :=
  [("name", presentText s.name), ("table", some s.table.document), ("columns", some columns),
   ("unique", presentFlag s.unique), ("if_not_exists", presentFlag s.ifNotExists),
   ("where", presentNode filter), ("include", presentList (s.included.map .text))]

theorem CreateIndex.hasMembers {s : CreateIndex} {columns filter : Node}
    (hcolumns : Lists IndexColumn.WrittenAs s.columns columns) (hfilter : s.filter.WrittenAs filter) :
  (createIndex s).HasMembers (s.entries columns filter)
  := by
  obtain ⟨columnsJson, hcolumnsJson, rfl⟩ := hcolumns.optionalArray?
  obtain ⟨filterMembers, hfilter, hfilterMembers⟩ := hfilter.exprMember "where"
  unfold HasMembers
  simp only [members?, hcolumnsJson, hfilter, Option.bind_eq_bind, Option.bind_some]
  refine ⟨_, rfl, ?_⟩
  simp only [ofMembers_append, ofMembers_textMember, ofMembers_pair, ofMembers_flagMember,
    hfilterMembers, ofMembers_listMember, ofItems_map_text, ofJson_toJson, ← given_append]
  rfl

theorem CreateIndex.exists_isRecovered {s : CreateIndex} (h : s.IsTidy) :
  ∃ n, (createIndex s).IsRecovered n
  := by
  have hlists : ∀ c ∈ s.columns.getD [], ∃ n, c.IsRecovered n := by
    intro c hc
    obtain ⟨m, hm⟩ := (h.columns c hc).exists_fitsPlace
    exact ⟨_, m, hm, rfl⟩
  obtain ⟨columns, hlists⟩ := Lists.exists_of_forall hlists
  obtain ⟨filter, hfilter⟩ := h.filter.exists_fitsPlace
  obtain ⟨columns', hcolumns', dcolumns⟩ := hlists.exists_starred fun _ _ h => h.starred
  obtain ⟨filter', hfilter', dfilter⟩ := hfilter.starred
  have hname := holds_presentText "name" "" s.name
  have htable := s.table.holds "table" (by decide)
  have hcolumns : Holds "columns" (optionalList (record IndexColumn.fill) {}) none
      (s.columns.map (List.map IndexColumn.starred)) (some columns) :=
    (Lists.recovers (hlists.map fun _ _ h => h.recovers)).holds (by decide) none
  have hunique := holds_presentFlag "unique" false s.unique
  have hexists := holds_presentFlag "if_not_exists" false s.ifNotExists
  have hwhere := hfilter.holds "where" (by decide)
  have hinclude : Holds "include" Reading.texts [] s.included _ := holds_texts (by decide) _
  have hmembers := CreateIndex.hasMembers (hlists.imp fun _ _ h => h.written) hfilter.written
  unfold CreateIndex.entries at hmembers
  refine isRecovered_of ["name", "table", "columns", "unique", "if_not_exists", "where", "include"]
    [3, 5, 7, 0, 1, 2, 4, 6] hmembers (CreateIndex.hasMembers hcolumns' hfilter') (fun _ => rfl) rfl
    rfl (by decide) (by decide) ?_ ?_
  · simp only [CreateIndex.entries, List.map_cons, memberDepth_some, memberDepth_presentNode,
      dcolumns, dfilter]
  · exact .slot rfl hcolumns rfl <|
      .slot rfl hexists rfl <|
      .slot rfl hinclude rfl <|
      .ignore (fun _ => rfl) <|
      .slot rfl hname rfl <|
      .slot rfl htable rfl <|
      .slot rfl hunique rfl <|
      .slot rfl hwhere rfl (.nil _)

theorem DropIndex.exists_isRecovered {s : DropIndex} (h : s.name.IsPlain) :
  ∃ n, (dropIndex s).IsRecovered n
  := by
  have hname := holds_rawNode "name" (by decide) h
  have htable := s.table.holds "table" (by decide)
  have hexists := holds_presentFlag "if_exists" false s.ifExists
  have hmembers : (dropIndex s).HasMembers [("name", some s.name),
      ("table", some s.table.document), ("if_exists", presentFlag s.ifExists)] := by
    obtain ⟨j, hj, hnode⟩ := (isDocument_of_isPlain h).toJson?
    rw [h.canonical_eq] at hnode
    unfold HasMembers
    simp only [members?, hj, Option.bind_eq_bind, Option.bind_some]
    refine ⟨_, rfl, ?_⟩
    simp only [ofMembers_append, ofMembers_pair, ofMembers_flagMember, hnode,
      ofJson_toJson, ← given_append]
    rfl
  refine isRecovered_of ["name", "table", "if_exists"] [3, 0, 1, 2] hmembers hmembers (fun _ => rfl)
    rfl rfl (by decide) (by decide) rfl ?_
  exact .slot rfl hexists rfl <|
    .ignore (fun _ => rfl) <|
    .slot rfl hname rfl <|
    .slot rfl htable rfl (.nil _)

theorem CreateView.hasMembers {s : CreateView} {definition : Node}
    (h : Select.WrittenAs s.definition definition) :
  (createView s).HasMembers [("name", some s.name.document),
    ("or_replace", presentFlag s.orReplace), ("if_not_exists", presentFlag s.ifNotExists),
    ("definition", some definition)]
  := by
  obtain ⟨j, hj, rfl⟩ := h
  unfold HasMembers
  simp only [members?, hj, Option.bind_eq_bind, Option.bind_some]
  refine ⟨_, rfl, ?_⟩
  simp only [ofMembers_append, ofMembers_single, ofMembers_flagMember, ofJson_toJson,
    ← given_append]
  rfl

theorem CreateView.exists_isRecovered {s : CreateView}
    (h : ∀ q, s.definition = some q → (Expr.ofQuery q).IsTidy) :
  ∃ n, (createView s).IsRecovered n
  := by
  obtain ⟨definition, hquery⟩ := Select.exists_fitsPlace fun q hq =>
    (h q hq).ofQuery.hasParts.exists_isRecovered
  obtain ⟨definition', hquery', dquery⟩ := hquery.starred
  have hname := s.name.holds "name" (by decide)
  have hreplace := holds_presentFlag "or_replace" false s.orReplace
  have hexists := holds_presentFlag "if_not_exists" false s.ifNotExists
  have hdefinition : Holds "definition" _ none (Select.starredOption s.definition)
      (some definition) :=
    hquery.recovers.holds (by decide) none
  refine isRecovered_of ["name", "or_replace", "if_not_exists", "definition"] [4, 3, 0, 1, 2]
    (CreateView.hasMembers hquery.written) (CreateView.hasMembers hquery') (fun _ => rfl) rfl rfl
    (by decide) (by decide) ?_ ?_
  · simp only [List.map_cons, memberDepth_some, dquery]
  · exact .slot rfl hdefinition rfl <|
      .slot rfl hexists rfl <|
      .ignore (fun _ => rfl) <|
      .slot rfl hname rfl <|
      .slot rfl hreplace rfl (.nil _)

theorem DropView.exists_isRecovered (s : DropView) :
  ∃ n, (dropView s).IsRecovered n
  := by
  have hname := s.name.holds "name" (by decide)
  have hexists := holds_presentFlag "if_exists" false s.ifExists
  have hmembers : (dropView s).HasMembers [("name", some s.name.document),
      ("if_exists", presentFlag s.ifExists)] := by
    refine ⟨_, rfl, ?_⟩
    simp only [ofMembers_append, ofMembers_single, ofMembers_flagMember, ofJson_toJson,
      ← given_append]
    rfl
  refine isRecovered_of ["name", "if_exists"] [2, 0, 1] hmembers hmembers (fun _ => rfl) rfl rfl
    (by decide) (by decide) rfl ?_
  exact .slot rfl hexists rfl <|
    .ignore (fun _ => rfl) <|
    .slot rfl hname rfl (.nil _)

/-! ### Rows -/

theorem Select.hasMembers {q : Select} {es : List (String × Option Node)}
    (h : Select.WrittenAs (some q) (.object (given es))) :
  (Statement.select q).HasMembers es
  := by
  obtain ⟨j, hj, hnode⟩ := h
  cases j with
  | object ms =>
    rw [Select.optionToJson?] at hj
    refine ⟨ms, ?_, Node.object.inj hnode⟩
    rw [members?, hj]
    rfl
  | _ => cases hnode

theorem Select.exists_isRecovered {q : Select} (h : q.IsTidy) :
  ∃ n, (Statement.select q).IsRecovered n
  := by
  obtain ⟨columns, sources, filter, groupBy, having, orderBy, h⟩ := h.hasParts
  obtain ⟨columns', sources', filter', groupBy', having', orderBy', hwritten, hdepth⟩ := h.starred
  have hslots := h.slots
  refine isRecovered_of ["distinct", "columns", "from", "where", "group_by", "having", "order_by",
    "limit", "offset", "set_op"] [2, 1, 3, 5, 6, 0, 8, 9, 7, 10, 4] (Select.hasMembers h.written)
    (Select.hasMembers hwritten)
    (fun n => congrArg (Functor.map Statement.select) (Select.read_eq Select.blank n))
    (congrArg Statement.select q.starred_eq) rfl (by decide) (by decide) hdepth ?_
  exact .slot rfl hslots.columns rfl <|
    .slot rfl hslots.distinct rfl <|
    .slot rfl hslots.sources rfl <|
    .slot rfl hslots.groupBy rfl <|
    .slot rfl hslots.having rfl <|
    .ignore (fun _ => rfl) <|
    .slot rfl hslots.limit rfl <|
    .slot rfl hslots.offset rfl <|
    .slot rfl hslots.orderBy rfl <|
    .slot rfl hslots.setOperation rfl <|
    .slot rfl hslots.filter rfl (.nil _)

/-- The members of a statement that inserts rows, given the document of its query. -/
def Insert.entries (s : Insert) (query : Node) : List (String × Option Node) :=
  [("table", some s.table.document), ("columns", presentList (s.columns.map .text)),
   ("values", presentNode s.values), ("select", presentNode query)]

theorem Insert.hasMembers {s : Insert} {query : Node} (hvalues : s.values.IsPlain)
    (hquery : Select.WrittenAs s.query query) :
  (Statement.insert s).HasMembers (s.entries query)
  := by
  obtain ⟨valuesMembers, hvalues, hvaluesMembers⟩ := hvalues.nodeMember "values"
  obtain ⟨queryJson, hquery, hqueryMember⟩ := hquery.member "select"
  unfold HasMembers
  simp only [members?, hvalues, hquery, Option.bind_eq_bind, Option.bind_some]
  refine ⟨_, rfl, ?_⟩
  simp only [ofMembers_append, ofMembers_single, ofMembers_listMember, ofItems_map_text,
    hvaluesMembers, hqueryMember, ofJson_toJson, ← given_append]
  rfl

theorem Insert.exists_isRecovered {s : Insert} (h : s.IsTidy) :
  ∃ n, (Statement.insert s).IsRecovered n
  := by
  obtain ⟨query, hquery⟩ := Select.exists_fitsPlace fun q hq =>
    (h.query q hq).ofQuery.hasParts.exists_isRecovered
  obtain ⟨query', hquery', dquery⟩ := hquery.starred
  have htable := s.table.holds "table" (by decide)
  have hcolumns : Holds "columns" Reading.texts [] s.columns _ := holds_texts (by decide) _
  have hvalues := holds_raw "values" (by decide) h.values
  have hselect := hquery.holds "select" (by decide)
  have hmembers := Insert.hasMembers h.values hquery.written
  unfold Insert.entries at hmembers
  refine isRecovered_of ["table", "columns", "values", "select"] [2, 0, 4, 1, 3] hmembers
    (Insert.hasMembers h.values hquery') (fun _ => rfl) rfl rfl (by decide) (by decide) ?_ ?_
  · simp only [Insert.entries, List.map_cons, memberDepth_presentNode, dquery]
  · exact .slot rfl hcolumns rfl <|
      .ignore (fun _ => rfl) <|
      .slot rfl hselect rfl <|
      .slot rfl htable rfl <|
      .slot rfl hvalues rfl (.nil _)

/-- Sources that need not be given are read back from their document, left out when there are
none. -/
theorem TableRef.holds_sources {rs : List TableRef} {ns : List Node}
    (h : List.Forall₂ TableRef.IsRecovered rs ns) :
  Holds "from" TableRef.readSources [] (rs.map TableRef.starred) (presentList ns)
  := by
  have hrecovers := TableRef.recovers_sources (.present h)
  cases h with
  | nil => exact ⟨nofun, fun _ => rfl⟩
  | cons _ _ =>
    refine ⟨?_, fun f => ?_⟩
    · rintro n ⟨⟩
      exact ⟨hrecovers.document, hrecovers.steady.inPlace (by decide)⟩
    · exact (hrecovers.gives f).bind (gives_pure _)

/-- The members of a statement that changes rows, given the documents of its parts. -/
def Update.entries (s : Update) (sources : List Node) (assignments filter : Node)
    (orderBy : List Node) : List (String × Option Node) :=
  [("table", some s.table.document), ("from", presentList sources), ("set", some assignments),
   ("where", presentNode filter), ("order_by", presentList orderBy), ("limit", presentNode s.limit)]

theorem Update.hasMembers {s : Update} {sources orderBy : List Node} {assignments filter : Node}
    (hsources : List.Forall₂ TableRef.WrittenAs s.sources sources)
    (hassignments : Lists Assignment.WrittenAs s.assignments assignments)
    (hfilter : s.filter.WrittenAs filter)
    (horderBy : List.Forall₂ OrderItem.WrittenAs s.orderBy orderBy) (hlimit : s.limit.IsPlain) :
  (Statement.update s).HasMembers (s.entries sources assignments filter orderBy)
  := by
  obtain ⟨sourcesJson, hsourcesJson, rfl, -⟩ := TableRef.listToJson?_of_forall₂ hsources
  obtain ⟨assignmentsJson, hassignmentsJson, rfl⟩ := hassignments.optionalArray?
  obtain ⟨filterMembers, hfilter, hfilterMembers⟩ := hfilter.exprMember "where"
  obtain ⟨orderJson, horderJson, rfl, -⟩ := OrderItem.listToJson?_of_forall₂ horderBy
  obtain ⟨limitMembers, hlimit, hlimitMembers⟩ := hlimit.nodeMember "limit"
  unfold HasMembers
  simp only [members?, hsourcesJson, hassignmentsJson, hfilter, horderJson, hlimit,
    Option.bind_eq_bind, Option.bind_some]
  refine ⟨_, rfl, ?_⟩
  simp only [ofMembers_append, ofMembers_single, ofMembers_listMember, hfilterMembers,
    hlimitMembers, ofJson_toJson, ← given_append]
  rfl

theorem TableRef.IsTidy.exists_isRecovered {r : TableRef} (h : r.IsTidy) :
  ∃ n, r.IsRecovered n
  := by
  obtain ⟨on, hon⟩ := h.on.exists_fitsPlace
  obtain ⟨subquery, hsubquery⟩ := Select.exists_fitsPlace fun p hp =>
    (h.subquery p hp).ofQuery.hasParts.exists_isRecovered
  exact ⟨_, on, subquery, hon, hsubquery, rfl⟩

theorem OrderItem.exists_isRecovered {o : OrderItem} (h : o.expr.IsTidySlot) :
  ∃ n, o.IsRecovered n
  := by
  obtain ⟨m, hm⟩ := h.exists_fitsPlace
  exact ⟨_, m, hm, rfl⟩

theorem Update.exists_isRecovered {s : Update} (h : s.IsTidy) :
  ∃ n, (Statement.update s).IsRecovered n
  := by
  have hset : ∀ a ∈ s.assignments.getD [], ∃ n, a.IsRecovered n := by
    intro a ha
    obtain ⟨m, hm⟩ := (h.assignments a ha).exists_fitsPlace
    exact ⟨_, m, hm, rfl⟩
  obtain ⟨sources, hsources⟩ := exists_forall₂ fun r hr => (h.sources r hr).exists_isRecovered
  obtain ⟨assignments, hassignments⟩ := Lists.exists_of_forall hset
  obtain ⟨filter, hfilter⟩ := h.filter.exists_fitsPlace
  obtain ⟨orderBy, horderBy⟩ := exists_forall₂ fun o ho =>
    OrderItem.exists_isRecovered (h.orderBy o ho)
  obtain ⟨sources', hsources', dsources⟩ :=
    exists_starred_of_forall₂ (fun _ _ h => h.starred) hsources
  obtain ⟨assignments', hassignments', dassignments⟩ :=
    hassignments.exists_starred fun _ _ h => h.starred
  obtain ⟨filter', hfilter', dfilter⟩ := hfilter.starred
  obtain ⟨orderBy', horderBy', dorderBy⟩ :=
    exists_starred_of_forall₂ (fun _ _ h => h.starred) horderBy
  have htable := s.table.holds "table" (by decide)
  have hfrom := TableRef.holds_sources hsources
  have hset : Holds "set" (optionalList (record Assignment.fill) {}) none
      (s.assignments.map (List.map Assignment.starred)) (some assignments) :=
    (Lists.recovers (hassignments.map fun _ _ h => h.recovers)).holds (by decide) none
  have hwhere := hfilter.holds "where" (by decide)
  have horder := OrderItem.holds_orderBy horderBy
  have hlimit := holds_raw "limit" (by decide) h.limit
  have hmembers := Update.hasMembers (hsources.imp fun _ _ h => h.written)
    (hassignments.imp fun _ _ h => h.written) hfilter.written (horderBy.imp fun _ _ h => h.written)
    h.limit
  unfold Update.entries at hmembers
  refine isRecovered_of ["table", "from", "set", "where", "order_by", "limit"] [2, 0, 6, 5, 3, 1, 4]
    hmembers (Update.hasMembers hsources' hassignments' hfilter' horderBy' h.limit) (fun _ => rfl)
    rfl rfl (by decide) (by decide) ?_ ?_
  · simp only [Update.entries, List.map_cons, memberDepth_some, memberDepth_presentNode,
      memberDepth_presentList, listDepth_congr dsources, dassignments, dfilter,
      listDepth_congr dorderBy]
  · exact .slot rfl hfrom rfl <|
      .ignore (fun _ => rfl) <|
      .slot rfl hlimit rfl <|
      .slot rfl horder rfl <|
      .slot rfl hset rfl <|
      .slot rfl htable rfl <|
      .slot rfl hwhere rfl (.nil _)

/-- The members of a statement that deletes rows, given the documents of its parts. -/
def Delete.entries (s : Delete) (sources : List Node) (filter : Node) (orderBy : List Node) :
    List (String × Option Node) :=
  [("table", some s.table.document), ("columns", presentList (s.columns.map .text)),
   ("from", presentList sources), ("where", presentNode filter), ("order_by", presentList orderBy),
   ("limit", presentNode s.limit)]

theorem Delete.hasMembers {s : Delete} {sources orderBy : List Node} {filter : Node}
    (hsources : List.Forall₂ TableRef.WrittenAs s.sources sources)
    (hfilter : s.filter.WrittenAs filter)
    (horderBy : List.Forall₂ OrderItem.WrittenAs s.orderBy orderBy) (hlimit : s.limit.IsPlain) :
  (Statement.delete s).HasMembers (s.entries sources filter orderBy)
  := by
  obtain ⟨sourcesJson, hsourcesJson, rfl, -⟩ := TableRef.listToJson?_of_forall₂ hsources
  obtain ⟨filterMembers, hfilter, hfilterMembers⟩ := hfilter.exprMember "where"
  obtain ⟨orderJson, horderJson, rfl, -⟩ := OrderItem.listToJson?_of_forall₂ horderBy
  obtain ⟨limitMembers, hlimit, hlimitMembers⟩ := hlimit.nodeMember "limit"
  unfold HasMembers
  simp only [members?, hsourcesJson, hfilter, horderJson, hlimit, Option.bind_eq_bind,
    Option.bind_some]
  refine ⟨_, rfl, ?_⟩
  simp only [ofMembers_append, ofMembers_single, ofMembers_listMember, ofItems_map_text,
    hfilterMembers, hlimitMembers, ofJson_toJson, ← given_append]
  rfl

theorem Delete.exists_isRecovered {s : Delete} (h : s.IsTidy) :
  ∃ n, (Statement.delete s).IsRecovered n
  := by
  obtain ⟨sources, hsources⟩ := exists_forall₂ fun r hr => (h.sources r hr).exists_isRecovered
  obtain ⟨filter, hfilter⟩ := h.filter.exists_fitsPlace
  obtain ⟨orderBy, horderBy⟩ := exists_forall₂ fun o ho =>
    OrderItem.exists_isRecovered (h.orderBy o ho)
  obtain ⟨sources', hsources', dsources⟩ :=
    exists_starred_of_forall₂ (fun _ _ h => h.starred) hsources
  obtain ⟨filter', hfilter', dfilter⟩ := hfilter.starred
  obtain ⟨orderBy', horderBy', dorderBy⟩ :=
    exists_starred_of_forall₂ (fun _ _ h => h.starred) horderBy
  have htable := s.table.holds "table" (by decide)
  have hcolumns : Holds "columns" Reading.texts [] s.columns _ := holds_texts (by decide) _
  have hfrom := TableRef.holds_sources hsources
  have hwhere := hfilter.holds "where" (by decide)
  have horder := OrderItem.holds_orderBy horderBy
  have hlimit := holds_raw "limit" (by decide) h.limit
  have hmembers := Delete.hasMembers (hsources.imp fun _ _ h => h.written) hfilter.written
    (horderBy.imp fun _ _ h => h.written) h.limit
  unfold Delete.entries at hmembers
  refine isRecovered_of ["table", "columns", "from", "where", "order_by", "limit"]
    [2, 3, 0, 6, 5, 1, 4] hmembers (Delete.hasMembers hsources' hfilter' horderBy' h.limit)
    (fun _ => rfl) rfl rfl (by decide) (by decide) ?_ ?_
  · simp only [Delete.entries, List.map_cons, memberDepth_presentNode, memberDepth_presentList,
      listDepth_congr dsources, dfilter, listDepth_congr dorderBy]
  · exact .slot rfl hcolumns rfl <|
      .slot rfl hfrom rfl <|
      .ignore (fun _ => rfl) <|
      .slot rfl hlimit rfl <|
      .slot rfl horder rfl <|
      .slot rfl htable rfl <|
      .slot rfl hwhere rfl (.nil _)

/-! ### All kinds -/

/-- Every tidy statement is read back from its document. -/
theorem Statement.IsTidy.exists_isRecovered {s : Statement} (h : s.IsTidy) :
  ∃ n, s.IsRecovered n
  := by
  cases s with
  | createKeyspace s => exact CreateKeyspace.exists_isRecovered h
  | alterKeyspace s => exact AlterKeyspace.exists_isRecovered h
  | dropKeyspace s => exact DropKeyspace.exists_isRecovered s
  | use s => exact Use.exists_isRecovered s
  | describe s => exact Describe.exists_isRecovered s
  | createTable s => exact CreateTable.exists_isRecovered h
  | alterTable s => exact AlterTable.exists_isRecovered h
  | dropTable s => exact DropTable.exists_isRecovered s
  | truncateTable s => exact TruncateTable.exists_isRecovered s
  | createIndex s => exact CreateIndex.exists_isRecovered h
  | dropIndex s => exact DropIndex.exists_isRecovered h
  | createView s => exact CreateView.exists_isRecovered h
  | dropView s => exact DropView.exists_isRecovered s
  | select s => exact Select.exists_isRecovered h
  | insert s => exact Insert.exists_isRecovered h
  | update s => exact Update.exists_isRecovered h
  | delete s => exact Delete.exists_isRecovered h

end CqlGateway

import CqlGateway.Proofs.Statement.Kinds

/-!
# Statements read back from their texts

Whatever text a statement was read from, writing it and reading it again gives the statement, with
the star in the place of every column called `*`. From then on nothing changes. A text is written
only if the document is not nested too deep to be read: a list in a text is one level, but two in the
document that is written, so there are statements that can be read and not written.
-/

namespace CqlGateway

open Node Reading

/-! ### Texts of documents -/

mutual

theorem Node.depth_ofJson : (j : Json) → (ofJson j).depth = j.depth
  | .null | .bool _ | .number _ | .text _ => rfl
  | .array items => by rw [ofJson, depth, Json.depth, itemsDepth_ofItems items]
  | .object members => by rw [ofJson, depth, Json.depth, membersDepth_ofMembers members]

theorem Node.itemsDepth_ofItems : (items : List Json) →
    itemsDepth (ofItems items) = Json.itemsDepth items
  | [] => rfl
  | j :: js => by rw [ofItems, itemsDepth, Json.itemsDepth, depth_ofJson j, itemsDepth_ofItems js]

theorem Node.membersDepth_ofMembers : (members : List (String × Json)) →
    membersDepth (ofMembers members) = Json.membersDepth members
  | [] => rfl
  | (name, j) :: ms => by
    rw [ofMembers, membersDepth, Json.membersDepth, depth_ofJson j, membersDepth_ofMembers ms]

end

theorem Node.depth_lt_of_lookup? {name : String} {ms : List (String × Node)} {n : Node}
    (h : lookup? name ms = some n) :
  n.depth < (Node.object ms).depth
  := by
  have hle : ∀ m ∈ ms, m.2.depth ≤ membersDepth ms := by
    clear h
    induction ms with
    | nil => exact List.forall_mem_nil _
    | cons m ms ih =>
      rw [List.forall_mem_cons, membersDepth]
      refine ⟨Nat.le_max_left _ _, fun m hm => ?_⟩
      exact (ih m hm).trans (Nat.le_max_right _ _)
  rw [depth]
  exact Nat.lt_succ_of_le (hle _ (mem_of_lookup? h))

namespace Statement

theorem starred_starred (s : Statement) :
  s.starred.starred = s.starred
  := by
  have hcolumns (cs : List IndexColumn) :
      (cs.map IndexColumn.starred).map IndexColumn.starred = cs.map IndexColumn.starred := by
    simp [IndexColumn.starred, Expr.starred_starred]
  have hassignments (as : List Assignment) :
      (as.map Assignment.starred).map Assignment.starred = as.map Assignment.starred := by
    simp [Assignment.starred, Expr.starred_starred]
  have hsources (rs : List TableRef) :
      (rs.map TableRef.starred).map TableRef.starred = rs.map TableRef.starred := by
    rw [← TableRef.starredAll_eq_map, ← TableRef.starredAll_eq_map, TableRef.starredAll_starredAll]
  have horderBy (os : List OrderItem) :
      (os.map OrderItem.starred).map OrderItem.starred = os.map OrderItem.starred := by
    rw [← OrderItem.starredAll_eq_map, ← OrderItem.starredAll_eq_map,
      OrderItem.starredAll_starredAll]
  cases s <;> simp only [starred, Option.map_map, Function.comp_def, hcolumns, hassignments, hsources,
    horderBy, Expr.starred_starred, Select.starred_starred, Select.starredOption_starredOption]

/-- The document of a statement that was read, as long as it is not nested too deep, is read as the
statement. -/
theorem IsRecovered.ofText_write {s : Statement} {n : Node} (h : s.IsRecovered n) {json : Json}
    (hjson : s.toJson? = some json) (hdepth : json.depth ≤ Json.depthLimit) :
  ofText json.write = .ok s.starred
  := by
  obtain ⟨j, hj, rfl⟩ := h.written
  cases hjson.symm.trans hj
  have hobject : ∃ members, json = .object members := by
    obtain ⟨ms, -, hms⟩ := Option.bind_eq_some_iff.mp hj
    cases hms
    exact ⟨_, rfl⟩
  obtain ⟨members, rfl⟩ := hobject
  have hdocument := documentOf_write (isSpelled_of_isDocument h.document) hdepth
  rw [ofText, hdocument]
  exact h.read

theorem toText?_of_toJson? {s : Statement} {json : Json} (h : s.toJson? = some json) :
  s.toText? = if json.depth ≤ Json.depthLimit then some json.write else none
  := by
  rw [toText?, h]
  rfl

/-- A statement that was read has a document. It is written exactly if the document is not nested
too deep. Then reading it gives the statement with the star in the place of columns called `*`, which
is written and read without further change. -/
theorem ofText_roundTrip {text : String} {s : Statement} (h : ofText text = .ok s) :
  ∃ json, s.toJson? = some json
    ∧ (Json.depthLimit < json.depth → s.toText? = none)
    ∧ (json.depth ≤ Json.depthLimit →
      s.toText? = some json.write ∧ ofText json.write = .ok s.starred
      ∧ ∃ again, s.starred.toText? = some again ∧ ofText again = .ok s.starred)
  := by
  obtain ⟨n, hn⟩ := (isTidy_of_ofText h).exists_isRecovered
  obtain ⟨json, hjson, rfl⟩ := hn.written
  have hwritten {s : Statement} {json : Json} (hjson : s.toJson? = some json)
      (hdepth : json.depth ≤ Json.depthLimit) : s.toText? = some json.write := by
    rw [toText?_of_toJson? hjson, if_pos hdepth]
  refine ⟨json, hjson, fun hdeep => ?_, fun hdepth => ?_⟩
  · rw [toText?_of_toJson? hjson, if_neg (Nat.not_le.mpr hdeep)]
  have hread := hn.ofText_write hjson hdepth
  obtain ⟨_, ⟨again, hagain, rfl⟩, hsame⟩ := hn.starred
  have hdepth' : again.depth ≤ Json.depthLimit := by
    rw [depth_ofJson, depth_ofJson] at hsame
    rw [hsame]
    exact hdepth
  obtain ⟨m, hm⟩ := (isTidy_of_ofText hread).exists_isRecovered
  have hreadAgain := hm.ofText_write hagain hdepth'
  rw [starred_starred] at hreadAgain
  exact ⟨hwritten hjson hdepth, hread, again.write, hwritten hagain hdepth', hreadAgain⟩

/-- A column of a query that is given without the type of its expression. -/
def bareColumn (name : String) : Json :=
  .object [("expr", .object [("column", .text name)])]

/-- The members of a query whose only column is called `*`, with a subquery in its condition. -/
def sampleMembers : List (String × Json) :=
  [("kind", .text "SELECT"), ("columns", .array [bareColumn "*"]),
   ("from", .array [.object [("name", .text "orders")]]),
   ("where", .object [("type", .text "binary_expr"), ("operator", .text "IN"),
     ("left", .object [("column", .text "buyer")]),
     ("right", .object [("type", .text "select"), ("select",
       .object [("from", .array [.object [("name", .text "buyers")]]),
         ("columns", .array [bareColumn "id"])])])]),
   ("limit", .number "10")]

/-- The query that the members describe. -/
def sampleQuery : Select :=
  { Select.blank with
    columns := [⟨.column "*", ""⟩]
    sources := some [{ TableRef.blank with table.name := "orders" }]
    filter := .binary "IN" (.column "buyer") (.ofQuery
      { Select.blank with
        columns := [⟨.column "id", ""⟩]
        sources := some [{ TableRef.blank with table.name := "buyers" }] })
    limit := .number "10" }

theorem ofText_sampleMembers :
  ofText (Json.object sampleMembers).write = .ok (.select sampleQuery)
  := by
  have hlimit : (Json.number "10").IsSpelled := .number (by decide)
  have hspelled : (Json.object sampleMembers).IsSpelled := by
    simp [sampleMembers, bareColumn, Json.isSpelled_object_iff, Json.isSpelled_array_iff,
      Json.IsSpelled.text, hlimit]
  rw [ofText, documentOf_write hspelled (by decide)]
  rfl

/-- The column called `*` comes back as the star, and stays so. -/
theorem ofText_roundTrip_sample :
  ofText (Json.object sampleMembers).write = .ok (.select sampleQuery)
    ∧ ∃ json : Json, (Statement.select sampleQuery).toText? = some json.write
      ∧ ofText json.write = .ok (.select { sampleQuery with columns := [⟨.star, ""⟩] })
      ∧ ∃ again, (Statement.select sampleQuery).starred.toText? = some again
        ∧ ofText again = .ok (.select { sampleQuery with columns := [⟨.star, ""⟩] })
  := by
  have hread := ofText_sampleMembers
  obtain ⟨json, hjson, -, hround⟩ := ofText_roundTrip hread
  have hdepth : json.depth ≤ Json.depthLimit := by
    have hmap : (Statement.select sampleQuery).toJson?.map Json.depth = some 7 := rfl
    rw [hjson] at hmap
    rw [Option.some.inj hmap]
    decide
  exact ⟨hread, json, hround hdepth⟩

/-! ### Statements that are nested too deep -/

/-- A list in a list, and so on, to the given depth. -/
def nestedArray : Nat → Json
  | 0 => .array []
  | n + 1 => .array [nestedArray n]

/-- The expression that a list in a list, and so on, describes. -/
def nestedList : Nat → Expr
  | 0 => .list []
  | n + 1 => .list [nestedList n]

/-- The members of a query with a list of the given depth for its condition. -/
def nestedMembers (n : Nat) : List (String × Json) :=
  [("kind", .text "select"), ("from", .null), ("where", nestedArray n)]

/-- The same members, as raw nodes. -/
def nestedEntries (n : Nat) : List (String × Option Node) :=
  [("kind", some (.text "select")), ("from", some .null), ("where", some (ofJson (nestedArray n)))]

theorem isSpelled_nestedArray (n : Nat) :
  (nestedArray n).IsSpelled
  := by
  induction n with
  | zero => exact .array (List.forall_mem_nil _)
  | succ n ih => exact .array (List.forall_mem_singleton.mpr ih)

theorem depth_nestedArray (n : Nat) :
  (nestedArray n).depth = n + 1
  := by
  induction n with
  | zero => rfl
  | succ n ih => simp [nestedArray, Json.depth, Json.itemsDepth, ih]

theorem isPlain_nestedArray (n : Nat) :
  (ofJson (nestedArray n)).IsPlain
  := by
  induction n with
  | zero => exact .list (List.forall_mem_nil _)
  | succ n ih => exact .list (List.forall_mem_singleton.mpr ih)

theorem isSteady_nestedArray (n : Nat) :
  (ofJson (nestedArray n)).IsSteady false
  := by
  induction n with
  | zero => exact .list (List.forall_mem_nil _)
  | succ n ih => exact .list (List.forall_mem_singleton.mpr ih)

theorem read_nestedArray (n : Nat) :
  Expr.read (ofJson (nestedArray n)) = .ok (nestedList n)
  := by
  induction n with
  | zero => rfl
  | succ n ih =>
    rw [nestedArray, ofJson, ofItems, ofItems, Expr.read, Expr.readAll, Expr.readAll, ih]
    rfl

/-- Each list is two levels of the document: the list of its items, and the object around it. -/
theorem writtenAs_nestedList (n : Nat) :
  ∃ m, (nestedList n).WrittenAs m ∧ m.depth = 2 * n + 1
  := by
  have hmissing : Expr.missing.WrittenAs .null := Expr.hasTranscript_missing.written
  have hquery : Select.WrittenAs none .null := Select.hasTranscript_none.written
  induction n with
  | zero =>
    refine ⟨_, Expr.writtenAs_of hmissing hmissing hmissing .null .nil .nil hquery, ?_⟩
    rfl
  | succ n ih =>
    obtain ⟨m, hm, hdepth⟩ := ih
    refine ⟨_, Expr.writtenAs_of hmissing hmissing hmissing .null .nil (.cons hm .nil) hquery, ?_⟩
    rw [depth, membersDepth_given]
    simp [Term.entries, Term.blank, presentList, depth, itemsDepth, hdepth]
    omega

/-- A query with a list of the given depth for its condition. -/
def nestedQuery (n : Nat) : Select :=
  { Select.blank with filter := nestedList n }

theorem holds_nestedArray (n : Nat) :
  Holds "where" (Expr.readSlot .missing) .missing (nestedList n) (some (ofJson (nestedArray n)))
  where
  suits m hm := by
    cases hm
    exact ⟨isDocument_of_isPlain (isPlain_nestedArray n),
      (isSteady_nestedArray n).inPlace (by decide)⟩
  offers f := by
    rw [Option.map_some, (isPlain_nestedArray n).arranged_eq]
    change (Expr.slot (ofJson (nestedArray n)) (Expr.read (ofJson (nestedArray n)))).Gives _
    rw [read_nestedArray]
    cases n <;> exact gives_pure _

theorem ofNode_nestedMembers (n : Nat) :
  ofNode (ofJson (.object (nestedMembers n))) = .ok (.select (nestedQuery n))
  := by
  have hfrom : Holds "from" TableRef.readList none none (some .null) :=
    (TableRef.recovers_sources .absent).holds (by decide) none
  have hwhere := holds_nestedArray n
  have hnames : AreMemberNames ((nestedEntries n).map Prod.fst) :=
    (by decide : AreMemberNames ["kind", "from", "where"])
  have hselect : ("kind", some (.text StatementKind.select.name)) ∈ nestedEntries n :=
    List.mem_cons_self
  refine ofNode_given hnames hselect
    (fun m => congrArg (Functor.map Statement.select) (Select.read_eq Select.blank m)) ?_
  exact .ignore (fun _ => rfl) <|
    .slot rfl hfrom rfl <|
    .slot rfl hwhere rfl (.nil _)

theorem ofText_nestedMembers {n : Nat} (hn : n + 2 ≤ Json.depthLimit) :
  ofText (Json.object (nestedMembers n)).write = .ok (.select (nestedQuery n))
  := by
  have hspelled : (Json.object (nestedMembers n)).IsSpelled := by
    apply Json.IsSpelled.object
    simp only [nestedMembers, List.forall_mem_cons]
    exact ⟨.text "select", .null, isSpelled_nestedArray n, List.forall_mem_nil _⟩
  have hdepth : (Json.object (nestedMembers n)).depth ≤ Json.depthLimit := by
    simp [nestedMembers, Json.depth, Json.membersDepth, depth_nestedArray]
    omega
  rw [ofText, documentOf_write hspelled hdepth]
  exact ofNode_nestedMembers n

theorem toText?_nestedQuery {n : Nat} (hn : Json.depthLimit < 2 * n + 2) :
  (Statement.select (nestedQuery n)).toText? = none
  := by
  obtain ⟨m, hm, hdepth⟩ := writtenAs_nestedList n
  have hmissing : Expr.missing.WrittenAs .null := Expr.hasTranscript_missing.written
  have hwritten : Select.WrittenAs (some (nestedQuery n)) (.object (given
      ((nestedQuery n).entries [] .null m [] .null []))) :=
    Select.writtenAs .nil ⟨.null, rfl, rfl⟩ hm .nil hmissing .nil .null .null
  have hnodup : (((Statement.select (nestedQuery n)).withKind
      ((nestedQuery n).entries [] .null m [] .null [])).map Prod.fst).Nodup :=
    (by decide : ["kind", "distinct", "columns", "from", "where", "group_by", "having", "order_by",
      "limit", "offset", "set_op"].Nodup)
  obtain ⟨json, hjson, hnode⟩ := (Select.hasMembers hwritten).written hnodup
  have hlookup : lookup? "where" (given (sortMembers ((Statement.select (nestedQuery n)).withKind
      ((nestedQuery n).entries [] .null m [] .null [])))) = presentNode m := by
    rw [← sortMembers_given hnodup, lookup?_sortMembers]
    simp only [withKind, Select.entries, lookup?_given_cons, given_nil, lookup?, String.reduceEq,
      if_true, if_false, Option.or_none, Option.none_or]
  have hpresent : presentNode m = some m := by
    cases m with
    | null => cases hdepth
    | _ => rfl
  have hdeep := depth_lt_of_lookup? (hlookup.trans hpresent)
  rw [← hnode, depth_ofJson] at hdeep
  rw [toText?_of_toJson? hjson, if_neg (by omega)]

/-- A statement that is read although it cannot be written. -/
theorem ofText_tooDeep :
  ofText (Json.object (nestedMembers 5000)).write = .ok (.select (nestedQuery 5000))
    ∧ (Statement.select (nestedQuery 5000)).toText? = none
  := ⟨ofText_nestedMembers (by decide), toText?_nestedQuery (by decide)⟩

end Statement

end CqlGateway

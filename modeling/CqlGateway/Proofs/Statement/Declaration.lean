import CqlGateway.Proofs.Statement.Accepted
import CqlGateway.Proofs.Statement.Expression

/-!
# The records of statements read back from their documents

Names, column declarations, changes of a table, columns of an index and assignments are read back
from their documents, and so are options and lists of texts.
-/

namespace CqlGateway

open Node Reading

variable {n : Node} {c : IndexColumn} {a : Assignment}

/-! ### Members as written -/

theorem Node.ofMembers_listMember (name : String) (items : List Json) :
  ofMembers (listMember name items) = given [(name, presentList (ofItems items))]
  := by
  cases items <;> rfl

theorem Expr.WrittenAs.exprMember {e : Expr} (h : e.WrittenAs n) (name : String) :
  ∃ ms, CqlGateway.exprMember name e = some ms ∧ ofMembers ms = given [(name, presentNode n)]
  := by
  obtain ⟨j, hj, hmember⟩ := h.member name
  cases e with
  | missing => exact ⟨[], rfl, hmember⟩
  | of t => exact ⟨[(name, j)], congrArg (Option.map fun json => [(name, json)]) hj, hmember⟩

theorem Node.IsPlain.nodeMember (h : n.IsPlain) (name : String) :
  ∃ ms, CqlGateway.nodeMember name n = some ms ∧ ofMembers ms = given [(name, presentNode n)]
  := by
  obtain ⟨j, hj, hmember⟩ := exists_member_of_isPlain name n h
  cases h with
  | null => exact ⟨[], rfl, hmember⟩
  | _ => exact ⟨[(name, j)], congrArg (Option.map fun json => [(name, json)]) hj, hmember⟩

theorem Node.ofItems_map_text (ss : List String) :
  ofItems (ss.map .text) = ss.map .text
  := by
  rw [ofItems_eq_map, List.map_map]
  rfl

theorem Node.Lists.optionalArray {α : Type} {f : α → Json} {as? : Option (List α)}
    (h : Lists (fun a n => ofJson (f a) = n) as? n) :
  ofJson (CqlGateway.optionalArray f as?) = n
  := by
  cases h with
  | absent => rfl
  | present h =>
    rw [CqlGateway.optionalArray, ofJson]
    congr 1
    induction h with
    | nil => rfl
    | cons ha _ ih => rw [List.map_cons, ofItems, ha, ih]

theorem Node.Lists.optionalArray? {α : Type} {f : α → Option Json} {as? : Option (List α)}
    (h : Lists (fun a n => ∃ j, f a = some j ∧ ofJson j = n) as? n) :
  ∃ j, CqlGateway.optionalArray? f as? = some j ∧ ofJson j = n
  := by
  cases h with
  | absent => exact ⟨.null, rfl, rfl⟩
  | @present as ns h =>
    have hitems : ∃ js, as.mapM f = some js ∧ ofItems js = ns := by
      induction h with
      | nil => exact ⟨[], rfl, rfl⟩
      | cons ha _ ih =>
        obtain ⟨j, hj, rfl⟩ := ha
        obtain ⟨js, hjs, rfl⟩ := ih
        exact ⟨j :: js, by simp [List.mapM_cons, hj, hjs], rfl⟩
    obtain ⟨js, hjs, rfl⟩ := hitems
    refine ⟨.array js, ?_, rfl⟩
    rw [CqlGateway.optionalArray?, hjs, Option.map_some]

/-! ### Texts and options -/

theorem Node.recovers_text (record : Bool) (old s : String) :
  Recovers record (Reading.text old) s (.text s)
  where
  document := .text s
  steady := .text record s
  gives f := by
    rw [arranged_text]
    exact gives_pure s

theorem Node.holds_texts {name : String} (hname : accumulates false name = false)
    (ss : List String) :
  Holds name Reading.texts [] ss (presentList (ss.map .text))
  := by
  have hrecovers : List.Forall₂ (Recovers true (Reading.text "")) ss (ss.map .text) := by
    rw [List.forall₂_map_right_iff, List.forall₂_same]
    intro s _
    apply recovers_text
  exact holds_presentList hrecovers hname

/-- The document of options, left out when there are none. -/
def presentOptions (options : List (String × String)) : Option Node :=
  if options.isEmpty then none else some (.object (options.map fun o => (o.1, .text o.2)))

theorem Node.ofMembers_optionsMember (options : List (String × String)) :
  ofMembers (optionsMember options) = given [("options", presentOptions options)]
  := by
  unfold optionsMember presentOptions
  split
  · rfl
  · rw [ofMembers_single, ofJson, ofMembers_eq_map, List.map_map]
    rfl

theorem Node.holds_options {options : List (String × String)} (h : AscendingMembers options) :
  Holds "options" (Reading.options []) [] options (presentOptions options)
  := by
  have hplain : (Node.object (options.map fun o => (o.1, .text o.2))).IsPlain := by
    apply IsPlain.object
    · exact List.pairwise_map.mpr h
    · intro m hm
      obtain ⟨o, -, rfl⟩ := List.mem_map.mp hm
      exact .text o.2
  have hgives (old : List (String × String)) :
      (Reading.options old (.object (options.map fun o => (o.1, .text o.2)))).Gives
        (options.foldl (fun sorted o => insertMember o.1 o.2 sorted) old) := by
    rw [Reading.options]
    clear h hplain
    induction options generalizing old with
    | nil => exact gives_pure old
    | cons o os ih => exact (gives_pure (insertMember o.1 o.2 old)).bind (ih _)
  unfold presentOptions
  split
  next hempty =>
    rw [List.isEmpty_iff] at hempty
    exact ⟨nofun, fun _ => hempty⟩
  next =>
    refine ⟨?_, fun f => ?_⟩
    · rintro n ⟨⟩
      exact ⟨isDocument_of_isPlain hplain, isSteadyIn_of_idle _ (by decide)⟩
    · have hsorted : options.foldl (fun sorted o => insertMember o.1 o.2 sorted) [] = options :=
        sortMembers_of_ascending h
      have hread := hgives []
      rw [hsorted] at hread
      rw [Option.map_some, hplain.arranged_eq]
      exact hread

/-! ### Records -/

/-- The document of a name. -/
def TableName.document (t : TableName) : Node :=
  .object (given [("keyspace", presentText t.keyspace), ("name", some (.text t.name))])

theorem TableName.ofJson_toJson (t : TableName) :
  ofJson t.toJson = t.document
  := by
  rw [TableName.toJson, TableName.members, ofJson, ofMembers_append, ofMembers_textMember,
    ofMembers_single, ← given_append]
  rfl

theorem TableName.recovers (t : TableName) :
  Recovers true (TableName.read {}) t t.document
  := by
  have hkeyspace := holds_presentText "keyspace" "" t.keyspace
  have hname := holds_text "name" "" "" t.name
  have hplaces : Places TableName.fill {} [("keyspace", presentText t.keyspace),
      ("name", some (.text t.name))] t :=
    .slot rfl hkeyspace (by rfl) (.slot rfl hname rfl (.nil _))
  refine recovers_record ["keyspace", "name"] [0, 1] rfl (by decide) (by decide) hplaces hplaces

/-- The document of the position of a column, left out when it is zero. -/
def presentPosition (position : Int) : Option Node :=
  if position = 0 then none else some (.number (toString position))

theorem Node.holds_position {position : Int} (h : Integer64.InRange position) :
  Holds "position" (Reading.integer 0) 0 position (presentPosition position)
  := by
  unfold presentPosition
  split
  next hzero => exact ⟨nofun, fun _ => hzero⟩
  next =>
    refine ⟨?_, fun f => ?_⟩
    · rintro n ⟨⟩
      exact ⟨.number (Json.isNumber_toString position), isSteadyIn_of_idle _ (by decide)⟩
    · have hgives : (Reading.integer 0 (.number (toString position))).Gives position := by
        rw [Reading.integer, Integer64.read?_toString h]
        exact gives_pure position
      cases f <;> exact hgives

theorem Node.holds_defaultValue (s? : Option String) :
  Holds "default_value" (Reading.optionalText none) none s? (s?.map .text)
  := by
  cases s? with
  | none => exact ⟨nofun, fun _ => rfl⟩
  | some s =>
    refine ⟨?_, fun f => ?_⟩
    · rintro n ⟨⟩
      apply suits_text
    · rw [Option.map_some, Option.map_some, arranged_text]
      exact gives_pure (some s)

/-- The members of a column declaration. -/
def Column.entries (c : Column) : List (String × Option Node) :=
  [("name", some (.text c.name)), ("type", some (.text c.sourceType)),
   ("primary_key", presentFlag c.primaryKey), ("nullable", presentFlag c.nullable),
   ("default_value", c.defaultValue.map .text), ("auto_increment", presentFlag c.autoIncrement),
   ("position", presentPosition c.position)]

theorem Column.ofJson_toJson (c : Column) :
  ofJson c.toJson = .object (given c.entries)
  := by
  have hposition : ofMembers (if c.position = 0 then [] else [("position", .int c.position)])
      = given [("position", presentPosition c.position)] := by
    unfold presentPosition
    split <;> rfl
  have htexts : ofMembers [("name", .text c.name), ("type", .text c.sourceType)]
      = given [("name", some (.text c.name)), ("type", some (.text c.sourceType))] := rfl
  rw [Column.toJson, ofJson, Column.entries]
  cases c.defaultValue with
  | none =>
    simp only [ofMembers_append, ofMembers_flagMember, htexts, hposition]
    simp only [ofMembers, List.append_nil, ← given_append]
    rfl
  | some s =>
    simp only [ofMembers_append, ofMembers_flagMember, htexts, hposition]
    simp only [ofMembers_single, ← given_append]
    rfl

theorem Column.recovers {c : Column} (h : c.IsTidy) :
  Recovers true (Column.read {}) c (.object (given c.entries))
  := by
  have hname := holds_text "name" "" "" c.name
  have htype := holds_text "type" "" "" c.sourceType
  have hprimary := holds_presentFlag "primary_key" false c.primaryKey
  have hnullable := holds_presentFlag "nullable" false c.nullable
  have hdefault := holds_defaultValue c.defaultValue
  have hincrement := holds_presentFlag "auto_increment" false c.autoIncrement
  have hposition := holds_position h
  unfold Column.entries
  refine recovers_record ["name", "type", "primary_key", "nullable", "default_value",
    "auto_increment", "position"] [5, 4, 0, 3, 6, 2, 1] rfl (by decide) (by decide) ?_ ?_
  · exact .slot rfl hname rfl <|
      .slot rfl htype rfl <|
      .slot rfl hprimary rfl <|
      .slot rfl hnullable rfl <|
      .slot rfl hdefault rfl <|
      .slot rfl hincrement rfl <|
      .slot rfl hposition rfl (.nil _)
  · exact .slot rfl hincrement rfl <|
      .slot rfl hdefault rfl <|
      .slot rfl hname rfl <|
      .slot rfl hnullable rfl <|
      .slot rfl hposition rfl <|
      .slot rfl hprimary rfl <|
      .slot rfl htype rfl (.nil _)

/-- The members of a change of a table. -/
def AlterSpec.entries (s : AlterSpec) : List (String × Option Node) :=
  [("action", some (.text s.action)), ("column", some (.object (given s.column.entries))),
   ("old_name", presentText s.oldName), ("new_name", presentText s.newName)]

theorem AlterSpec.ofJson_toJson (s : AlterSpec) :
  ofJson s.toJson = .object (given s.entries)
  := by
  have hfront : ofMembers [("action", .text s.action), ("column", s.column.toJson)]
      = given [("action", some (.text s.action)),
        ("column", some (.object (given s.column.entries)))] := by
    rw [← Column.ofJson_toJson]
    rfl
  rw [AlterSpec.toJson, ofJson]
  simp only [ofMembers_append, ofMembers_textMember, hfront, ← given_append]
  rfl

theorem AlterSpec.recovers {s : AlterSpec} (h : s.column.IsTidy) :
  Recovers true (record AlterSpec.fill {}) s (.object (given s.entries))
  := by
  have haction := holds_text "action" "" "" s.action
  have hcolumn : Holds "column" (Column.read {}) {} s.column _ :=
    (Column.recovers h).holds (by decide) {}
  have hold := holds_presentText "old_name" "" s.oldName
  have hnew := holds_presentText "new_name" "" s.newName
  unfold AlterSpec.entries
  refine recovers_record ["action", "column", "old_name", "new_name"] [0, 1, 3, 2] rfl (by decide)
    (by decide) ?_ ?_
  · exact .slot rfl haction rfl <|
      .slot rfl hcolumn rfl <|
      .slot rfl hold rfl <|
      .slot rfl hnew rfl (.nil _)
  · exact .slot rfl haction rfl <|
      .slot rfl hcolumn rfl <|
      .slot rfl hnew rfl <|
      .slot rfl hold rfl (.nil _)

/-! ### Records with expressions -/

/-- A column of an index with the star in the place of every column called `*`. -/
def IndexColumn.starred (c : IndexColumn) : IndexColumn :=
  { c with expr := c.expr.starred }

/-- An assignment with the star in the place of every column called `*`. -/
def Assignment.starred (a : Assignment) : Assignment :=
  { a with value := a.value.starred }

/-- The document of a column of an index, given that of its expression. -/
def IndexColumn.document (c : IndexColumn) (expr : Node) : Node :=
  .object (given [("name", presentText c.name), ("expr", presentNode expr),
    ("desc", presentFlag c.desc)])

/-- The document of an assignment, given that of its value. -/
def Assignment.document (a : Assignment) (value : Node) : Node :=
  .object (given [("column", some (.text a.column)), ("value", some value)])

/-- The document of a column of an index. -/
def IndexColumn.WrittenAs (c : IndexColumn) (n : Node) : Prop :=
  ∃ j, c.toJson? = some j ∧ ofJson j = n

/-- The document of an assignment. -/
def Assignment.WrittenAs (a : Assignment) (n : Node) : Prop :=
  ∃ j, a.toJson? = some j ∧ ofJson j = n

theorem IndexColumn.writtenAs_document (h : c.expr.WrittenAs n) :
  c.WrittenAs (c.document n)
  := by
  obtain ⟨ms, hms, hexpr⟩ := h.exprMember "expr"
  unfold IndexColumn.WrittenAs
  rw [IndexColumn.toJson?, hms]
  refine ⟨_, rfl, ?_⟩
  simp only [ofJson, ofMembers_append, ofMembers_textMember, hexpr, ofMembers_flagMember,
    ← given_append]
  rfl

theorem Assignment.writtenAs_document (h : a.value.WrittenAs n) :
  a.WrittenAs (a.document n)
  := by
  obtain ⟨j, hj, rfl⟩ := h
  unfold Assignment.WrittenAs
  rw [Assignment.toJson?, hj]
  exact ⟨_, rfl, rfl⟩

/-- A column of an index is read back from its document. -/
def IndexColumn.IsRecovered (c : IndexColumn) (n : Node) : Prop :=
  ∃ m, c.expr.FitsPlace m ∧ c.document m = n

/-- An assignment is read back from its document. -/
def Assignment.IsRecovered (a : Assignment) (n : Node) : Prop :=
  ∃ m, a.value.FitsPlace m ∧ a.document m = n

theorem IndexColumn.IsRecovered.written (h : c.IsRecovered n) :
  c.WrittenAs n
  := by
  obtain ⟨m, hm, rfl⟩ := h
  exact writtenAs_document hm.written

theorem Assignment.IsRecovered.written (h : a.IsRecovered n) :
  a.WrittenAs n
  := by
  obtain ⟨m, hm, rfl⟩ := h
  exact writtenAs_document hm.written

theorem IndexColumn.IsRecovered.starred (h : c.IsRecovered n) :
  ∃ m, c.starred.WrittenAs m ∧ m.depth = n.depth
  := by
  obtain ⟨e, he, rfl⟩ := h
  obtain ⟨e', he', hdepth⟩ := he.starred
  refine ⟨_, writtenAs_document he', ?_⟩
  apply depth_given_congr
  simp [hdepth, IndexColumn.starred]

theorem Assignment.IsRecovered.starred (h : a.IsRecovered n) :
  ∃ m, a.starred.WrittenAs m ∧ m.depth = n.depth
  := by
  obtain ⟨e, he, rfl⟩ := h
  obtain ⟨e', he', hdepth⟩ := he.starred
  refine ⟨_, writtenAs_document he', ?_⟩
  apply depth_given_congr
  simp [hdepth, Assignment.starred, depth]

theorem IndexColumn.IsRecovered.recovers (h : c.IsRecovered n) :
  Recovers true (record IndexColumn.fill {}) c.starred n
  := by
  obtain ⟨m, hm, rfl⟩ := h
  have hname := holds_presentText "name" "" c.name
  have hexpr := hm.holds "expr" (by decide)
  have hdesc := holds_presentFlag "desc" false c.desc
  refine recovers_record ["name", "expr", "desc"] [2, 1, 0] rfl (by decide) (by decide) ?_ ?_
  · exact .slot rfl hname rfl <|
      .slot rfl hexpr rfl <|
      .slot rfl hdesc rfl (.nil _)
  · exact .slot rfl hdesc rfl <|
      .slot rfl hexpr rfl <|
      .slot rfl hname rfl (.nil _)

theorem Assignment.IsRecovered.recovers (h : a.IsRecovered n) :
  Recovers true (record Assignment.fill {}) a.starred n
  := by
  obtain ⟨m, hm, rfl⟩ := h
  have hcolumn := holds_text "column" "" "" a.column
  have hvalue : Holds "value" (Expr.readSlot .missing) .missing a.value.starred (some m) :=
    hm.recovers.holds (by decide) .missing
  have hplaces : Places Assignment.fill {} [("column", some (.text a.column)), ("value", some m)]
      a.starred :=
    .slot rfl hcolumn (by rfl) (.slot rfl hvalue rfl (.nil _))
  refine recovers_record ["column", "value"] [0, 1] rfl (by decide) (by decide) hplaces hplaces

end CqlGateway

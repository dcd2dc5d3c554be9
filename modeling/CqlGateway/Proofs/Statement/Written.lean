import CqlGateway.Proofs.Statement.Filling
import CqlGateway.Statement.Writer

/-!
# The documents of expressions and queries

The document of a term is an object with a member for each part that is there, and so is the document
of a query and of its columns, criteria and sources. The document of an absent part is null, and the
member for it is left out.
-/

namespace CqlGateway

open Node

variable {ns : List Node}

/-! ### Members as written -/

theorem Node.ofMembers_append (ms ns : List (String × Json)) :
  ofMembers (ms ++ ns) = ofMembers ms ++ ofMembers ns
  := by
  simp [ofMembers_eq_map]

theorem Node.ofMembers_single (name : String) (j : Json) :
  ofMembers [(name, j)] = given [(name, some (ofJson j))]
  := rfl

theorem Node.ofMembers_textMember (name s : String) :
  ofMembers (textMember name s) = given [(name, presentText s)]
  := by
  unfold textMember presentText
  split <;> rfl

theorem Node.ofMembers_flagMember (name : String) (b : Bool) :
  ofMembers (flagMember name b) = given [(name, presentFlag b)]
  := by
  cases b <;> rfl

/-- A member that is left out exactly if its value is null. -/
theorem Node.ofMembers_ite {c : Bool} {j : Json} (h : (ofJson j).isNull = !c) (name : String) :
  ofMembers (if c then [(name, j)] else []) = given [(name, presentNode (ofJson j))]
  := by
  unfold presentNode
  cases c with
  | false => simp [h, ofMembers]
  | true => simp [h, ofMembers]

/-! ### Expressions and queries as written -/

/-- The document of an expression. -/
def Expr.WrittenAs (e : Expr) (n : Node) : Prop :=
  ∃ j, e.toJson? = some j ∧ ofJson j = n

/-- The document of a query, null if there is none. -/
def Select.WrittenAs (q? : Option Select) (n : Node) : Prop :=
  ∃ j, Select.optionToJson? q? = some j ∧ ofJson j = n

theorem Expr.isNull_toJson? {e : Expr} {j : Json} (h : e.toJson? = some j) :
  (ofJson j).isNull = !e.isPresent
  := by
  cases e with
  | missing =>
    cases h
    rfl
  | of t =>
    cases t
    rw [Expr.toJson?, Term.toJson?] at h
    iterate 7 obtain ⟨_, -, h⟩ := Option.bind_eq_some_iff.mp h
    cases h
    rfl

theorem Select.isNull_optionToJson? {q? : Option Select} {j : Json}
    (h : Select.optionToJson? q? = some j) :
  (ofJson j).isNull = !q?.isSome
  := by
  cases q? with
  | none =>
    cases h
    rfl
  | some q =>
    cases q
    rw [Select.optionToJson?, Select.toJson?] at h
    iterate 8 obtain ⟨_, -, h⟩ := Option.bind_eq_some_iff.mp h
    cases h
    rfl

theorem Expr.WrittenAs.member {e : Expr} {n : Node} (h : e.WrittenAs n) (name : String) :
  ∃ j, e.toJson? = some j
    ∧ ofMembers (if e.isPresent then [(name, j)] else []) = given [(name, presentNode n)]
  := by
  obtain ⟨j, hj, rfl⟩ := h
  exact ⟨j, hj, ofMembers_ite (isNull_toJson? hj) name⟩

theorem Select.WrittenAs.member {q? : Option Select} {n : Node} (h : Select.WrittenAs q? n)
    (name : String) :
  ∃ j, Select.optionToJson? q? = some j
    ∧ ofMembers (if q?.isSome then [(name, j)] else []) = given [(name, presentNode n)]
  := by
  obtain ⟨j, hj, rfl⟩ := h
  exact ⟨j, hj, ofMembers_ite (isNull_optionToJson? hj) name⟩

/-- The member for a raw node, which is left out when the node is absent. -/
theorem exists_member_of_isPlain (name : String) (n : Node) :
  n.IsPlain → ∃ j, n.toJson? = some j
    ∧ ofMembers (match n with | .null => [] | _ => [(name, j)]) = given [(name, presentNode n)]
  := by
  intro h
  obtain ⟨j, hj, hn⟩ := (isDocument_of_isPlain h).toJson?
  rw [h.canonical_eq] at hn
  refine ⟨j, hj, ?_⟩
  cases h with
  | null => rfl
  | _ =>
    rw [ofMembers_single, hn]
    rfl

/-! ### Lists as written -/

/-- The member for a list, which is left out when the list is empty. -/
theorem Node.ofMembers_items {α : Type} {as : List α} {js : List Json}
    (h : js.length = as.length) (name : String) :
  ofMembers (if as.isEmpty then [] else [(name, .array js)])
    = given [(name, presentList (ofItems js))]
  := by
  cases as with
  | nil =>
    cases js with
    | nil => rfl
    | cons _ _ => cases h
  | cons a as =>
    cases js with
    | nil => cases h
    | cons j js => rfl

theorem Expr.listToJson?_of_forall₂ {es : List Expr} (h : List.Forall₂ Expr.WrittenAs es ns) :
  ∃ js, Expr.listToJson? es = some js ∧ ofItems js = ns ∧ js.length = es.length
  := by
  induction h with
  | nil => exact ⟨[], rfl, rfl, rfl⟩
  | cons he _ ih =>
    obtain ⟨j, hj, rfl⟩ := he
    obtain ⟨js, hjs, rfl, hlength⟩ := ih
    exact ⟨j :: js, by simp [Expr.listToJson?, hj, hjs], rfl, by simp [hlength]⟩

/-- The document of a column of a query, given that of its expression. -/
def SelectColumn.document (c : SelectColumn) (expr : Node) : Node :=
  .object (given [("expr", some expr), ("alias", presentText c.label)])

/-- The document of a criterion of an ordering, given that of its expression. -/
def OrderItem.document (o : OrderItem) (expr : Node) : Node :=
  .object (given [("expr", some expr), ("desc", presentFlag o.desc)])

/-- The members of a source, given the documents of its parts. -/
def TableRef.entries (r : TableRef) (on subquery : Node) : List (String × Option Node) :=
  [("keyspace", presentText r.table.keyspace), ("name", some (.text r.table.name)),
   ("alias", presentText r.label), ("join", presentText r.join), ("on", presentNode on),
   ("subquery", presentNode subquery)]

/-- The document of a column of a query. -/
def SelectColumn.WrittenAs (c : SelectColumn) (n : Node) : Prop :=
  ∃ m, c.expr.WrittenAs m ∧ c.document m = n

/-- The document of a criterion of an ordering. -/
def OrderItem.WrittenAs (o : OrderItem) (n : Node) : Prop :=
  ∃ m, o.expr.WrittenAs m ∧ o.document m = n

/-- The document of a source. -/
def TableRef.WrittenAs (r : TableRef) (n : Node) : Prop :=
  ∃ on subquery, r.on.WrittenAs on ∧ Select.WrittenAs r.subquery subquery
    ∧ .object (given (r.entries on subquery)) = n

/-- The document of the sources of a query, null if none were named. -/
def TableRef.AreWrittenAs (rs? : Option (List TableRef)) (n : Node) : Prop :=
  ∃ j, TableRef.optionToJson? rs? = some j ∧ ofJson j = n

theorem SelectColumn.listToJson?_of_forall₂ {cs : List SelectColumn}
    (h : List.Forall₂ SelectColumn.WrittenAs cs ns) :
  ∃ js, SelectColumn.listToJson? cs = some js ∧ ofItems js = ns ∧ js.length = cs.length
  := by
  induction h with
  | nil => exact ⟨[], rfl, rfl, rfl⟩
  | @cons c n cs ns hc _ ih =>
    obtain ⟨_, ⟨j, hj, rfl⟩, rfl⟩ := hc
    obtain ⟨js, hjs, rfl, hlength⟩ := ih
    cases c
    refine ⟨_, by simp only [SelectColumn.listToJson?, hj, hjs, Option.bind_eq_bind,
      Option.bind_some]; rfl, ?_, by simp [hlength]⟩
    rw [ofItems, ofJson, ofMembers_append, ofMembers_textMember]
    rfl

theorem OrderItem.listToJson?_of_forall₂ {os : List OrderItem}
    (h : List.Forall₂ OrderItem.WrittenAs os ns) :
  ∃ js, OrderItem.listToJson? os = some js ∧ ofItems js = ns ∧ js.length = os.length
  := by
  induction h with
  | nil => exact ⟨[], rfl, rfl, rfl⟩
  | @cons o n os ns ho _ ih =>
    obtain ⟨_, ⟨j, hj, rfl⟩, rfl⟩ := ho
    obtain ⟨js, hjs, rfl, hlength⟩ := ih
    cases o
    refine ⟨_, by simp only [OrderItem.listToJson?, hj, hjs, Option.bind_eq_bind,
      Option.bind_some]; rfl, ?_, by simp [hlength]⟩
    rw [ofItems, ofJson, ofMembers_append, ofMembers_flagMember]
    rfl

theorem TableRef.listToJson?_of_forall₂ {rs : List TableRef}
    (h : List.Forall₂ TableRef.WrittenAs rs ns) :
  ∃ js, TableRef.listToJson? rs = some js ∧ ofItems js = ns ∧ js.length = rs.length
  := by
  induction h with
  | nil => exact ⟨[], rfl, rfl, rfl⟩
  | @cons r n rs ns hr _ ih =>
    obtain ⟨on, subquery, hon, hsubquery, rfl⟩ := hr
    obtain ⟨onJson, hon, hon'⟩ := hon.member "on"
    obtain ⟨subqueryJson, hsubquery, hsubquery'⟩ := hsubquery.member "subquery"
    obtain ⟨js, hjs, rfl, hlength⟩ := ih
    cases r
    refine ⟨_, by simp only [TableRef.listToJson?, hon, hsubquery, hjs, Option.bind_eq_bind,
      Option.bind_some]; rfl, ?_, by simp [hlength]⟩
    simp only [ofItems, ofJson, TableName.members, ofMembers_append, ofMembers_textMember,
      ofMembers_single, hon', hsubquery', ← given_append]
    rfl

/-! ### Terms -/

/-- The members of a term, given the documents of its parts. -/
def Term.entries (t : Term) (left right operand : Node) (args items : List Node) (query : Node) :
    List (String × Option Node) :=
  [("type", some (.text t.kind.name)), ("operator", presentText t.operator),
   ("left", presentNode left), ("right", presentNode right), ("operand", presentNode operand),
   ("table", presentText t.table), ("column", presentText t.column), ("value", presentNode t.value),
   ("name", presentText t.name), ("args", presentList args), ("items", presentList items),
   ("distinct", presentFlag t.distinct), ("select", presentNode query)]

theorem Expr.writtenAs_of {t : Term} {left right operand query : Node} {args items : List Node}
    (hleft : t.left.WrittenAs left) (hright : t.right.WrittenAs right)
    (hoperand : t.operand.WrittenAs operand) (hvalue : t.value.IsPlain)
    (hargs : List.Forall₂ Expr.WrittenAs t.args args)
    (hitems : List.Forall₂ Expr.WrittenAs t.items items) (hquery : Select.WrittenAs t.query query) :
  (Expr.of t).WrittenAs (.object (given (t.entries left right operand args items query)))
  := by
  obtain ⟨leftJson, hleft, hleft'⟩ := hleft.member "left"
  obtain ⟨rightJson, hright, hright'⟩ := hright.member "right"
  obtain ⟨operandJson, hoperand, hoperand'⟩ := hoperand.member "operand"
  obtain ⟨valueJson, hvalue, hvalue'⟩ := exists_member_of_isPlain "value" _ hvalue
  obtain ⟨argsJson, hargsJson, rfl, hargs'⟩ := listToJson?_of_forall₂ hargs
  obtain ⟨itemsJson, hitemsJson, rfl, hitems'⟩ := listToJson?_of_forall₂ hitems
  obtain ⟨queryJson, hquery, hquery'⟩ := hquery.member "select"
  cases t
  unfold WrittenAs
  simp only [Expr.toJson?, Term.toJson?, hleft, hright, hoperand, hvalue, hargsJson, hitemsJson,
    hquery, Option.bind_eq_bind, Option.bind_some]
  refine ⟨_, rfl, ?_⟩
  simp only [ofJson, ofMembers_append, ofMembers_textMember, ofMembers_flagMember, ofMembers_single,
    hleft', hright', hoperand', ofMembers_items hargs', ofMembers_items hitems', hquery']
  erw [hvalue']
  simp only [← given_append]
  rfl

/-! ### Queries -/

/-- The members of a query, given the documents of its parts. -/
def Select.entries (q : Select) (columns : List Node) (sources filter : Node) (groupBy : List Node)
    (having : Node) (orderBy : List Node) : List (String × Option Node) :=
  [("distinct", presentFlag q.distinct), ("columns", presentList columns), ("from", some sources),
   ("where", presentNode filter), ("group_by", presentList groupBy), ("having", presentNode having),
   ("order_by", presentList orderBy), ("limit", presentNode q.limit),
   ("offset", presentNode q.offset), ("set_op", presentText q.setOperation)]

theorem Select.writtenAs {q : Select} {columns groupBy orderBy : List Node}
    {sources filter having : Node}
    (hcolumns : List.Forall₂ SelectColumn.WrittenAs q.columns columns)
    (hsources : TableRef.AreWrittenAs q.sources sources) (hfilter : q.filter.WrittenAs filter)
    (hgroupBy : List.Forall₂ Expr.WrittenAs q.groupBy groupBy)
    (hhaving : q.having.WrittenAs having)
    (horderBy : List.Forall₂ OrderItem.WrittenAs q.orderBy orderBy) (hlimit : q.limit.IsPlain)
    (hoffset : q.offset.IsPlain) :
  Select.WrittenAs (some q)
    (.object (given (q.entries columns sources filter groupBy having orderBy)))
  := by
  obtain ⟨columnsJson, hcolumnsJson, rfl, hcolumns'⟩ :=
    SelectColumn.listToJson?_of_forall₂ hcolumns
  obtain ⟨sourcesJson, hsourcesJson, rfl⟩ := hsources
  obtain ⟨filterJson, hfilter, hfilter'⟩ := hfilter.member "where"
  obtain ⟨groupJson, hgroupJson, rfl, hgroupBy'⟩ := Expr.listToJson?_of_forall₂ hgroupBy
  obtain ⟨havingJson, hhaving, hhaving'⟩ := hhaving.member "having"
  obtain ⟨orderJson, horderJson, rfl, horderBy'⟩ := OrderItem.listToJson?_of_forall₂ horderBy
  obtain ⟨limitJson, hlimit, hlimit'⟩ := exists_member_of_isPlain "limit" _ hlimit
  obtain ⟨offsetJson, hoffset, hoffset'⟩ := exists_member_of_isPlain "offset" _ hoffset
  cases q
  unfold WrittenAs
  simp only [Select.optionToJson?, Select.toJson?, hcolumnsJson, hsourcesJson, hfilter, hgroupJson,
    hhaving, horderJson, hlimit, hoffset, Option.bind_eq_bind, Option.bind_some]
  refine ⟨_, rfl, ?_⟩
  simp only [ofJson, ofMembers_append, ofMembers_textMember, ofMembers_flagMember, ofMembers_single,
    ofMembers_items hcolumns', hfilter', ofMembers_items hgroupBy', hhaving',
    ofMembers_items horderBy']
  erw [hlimit', hoffset']
  simp only [← given_append]
  rfl

end CqlGateway

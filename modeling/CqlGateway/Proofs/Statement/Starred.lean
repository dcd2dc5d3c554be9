import CqlGateway.Proofs.Statement.Arrangement
import CqlGateway.Proofs.Statement.Tidy
import CqlGateway.Proofs.Statement.Written

/-!
# Reading expressions and queries back

A tidy expression has a document, and reading the document gives the expression back, except that a
column called `*` comes back as the star. So does a tidy query. The document may be read in any of
its forms.
-/

namespace CqlGateway

open Node

variable {s : String}

/-! ### Columns called `*` -/

mutual

/-- An expression with the star in the place of every column called `*`. -/
def Expr.starred : Expr → Expr
  | .missing => .missing
  | .of ⟨kind, operator, left, right, operand, table, column, value, name, args, items, distinct,
      query⟩ =>
    if kind = .column ∧ column = "*" then .star
    else
      .of ⟨kind, operator, left.starred, right.starred, operand.starred, table, column, value, name,
        Expr.starredAll args, Expr.starredAll items, distinct, Select.starredOption query⟩

/-- Expressions with the star in the place of every column called `*`. -/
def Expr.starredAll : List Expr → List Expr
  | [] => []
  | e :: es => e.starred :: Expr.starredAll es

/-- A query, if there is one, with the star in the place of every column called `*`. -/
def Select.starredOption : Option Select → Option Select
  | none => none
  | some q => some q.starred

/-- A query with the star in the place of every column called `*`. -/
def Select.starred : Select → Select
  | ⟨distinct, columns, sources, filter, groupBy, having, orderBy, limit, offset, setOperation⟩ =>
    ⟨distinct, SelectColumn.starredAll columns, TableRef.starredOption sources, filter.starred,
      Expr.starredAll groupBy, having.starred, OrderItem.starredAll orderBy, limit, offset,
      setOperation⟩

/-- Columns of a query with the star in the place of every column called `*`. -/
def SelectColumn.starredAll : List SelectColumn → List SelectColumn
  | [] => []
  | ⟨e, label⟩ :: cs => ⟨e.starred, label⟩ :: SelectColumn.starredAll cs

/-- Criteria of an ordering with the star in the place of every column called `*`. -/
def OrderItem.starredAll : List OrderItem → List OrderItem
  | [] => []
  | ⟨e, desc⟩ :: os => ⟨e.starred, desc⟩ :: OrderItem.starredAll os

/-- Sources, if any were named, with the star in the place of every column called `*`. -/
def TableRef.starredOption : Option (List TableRef) → Option (List TableRef)
  | none => none
  | some rs => some (TableRef.starredAll rs)

/-- Sources with the star in the place of every column called `*`. -/
def TableRef.starredAll : List TableRef → List TableRef
  | [] => []
  | ⟨table, label, join, on, subquery⟩ :: rs =>
    ⟨table, label, join, on.starred, Select.starredOption subquery⟩ :: TableRef.starredAll rs

end

/-- A column of a query with the star in the place of every column called `*`. -/
def SelectColumn.starred (c : SelectColumn) : SelectColumn :=
  { c with expr := c.expr.starred }

/-- A criterion of an ordering with the star in the place of every column called `*`. -/
def OrderItem.starred (o : OrderItem) : OrderItem :=
  { o with expr := o.expr.starred }

/-- A source with the star in the place of every column called `*`. -/
def TableRef.starred (r : TableRef) : TableRef :=
  { r with on := r.on.starred, subquery := Select.starredOption r.subquery }

theorem Expr.starredAll_eq_map (es : List Expr) :
  Expr.starredAll es = es.map Expr.starred
  := by
  induction es with
  | nil => rfl
  | cons e es ih => rw [Expr.starredAll, ih, List.map_cons]

theorem SelectColumn.starredAll_eq_map (cs : List SelectColumn) :
  SelectColumn.starredAll cs = cs.map SelectColumn.starred
  := by
  induction cs with
  | nil => rfl
  | cons c cs ih =>
    obtain ⟨e, label⟩ := c
    rw [SelectColumn.starredAll, ih, List.map_cons, SelectColumn.starred]

theorem OrderItem.starredAll_eq_map (os : List OrderItem) :
  OrderItem.starredAll os = os.map OrderItem.starred
  := by
  induction os with
  | nil => rfl
  | cons o os ih =>
    obtain ⟨e, desc⟩ := o
    rw [OrderItem.starredAll, ih, List.map_cons, OrderItem.starred]

theorem TableRef.starredAll_eq_map (rs : List TableRef) :
  TableRef.starredAll rs = rs.map TableRef.starred
  := by
  induction rs with
  | nil => rfl
  | cons r rs ih =>
    obtain ⟨table, label, join, on, subquery⟩ := r
    rw [TableRef.starredAll, ih, List.map_cons, TableRef.starred]

theorem Expr.starred_of {t : Term} (h : ¬ (t.kind = .column ∧ t.column = "*")) :
  (Expr.of t).starred
    = .of { t with
        left := t.left.starred
        right := t.right.starred
        operand := t.operand.starred
        args := t.args.map Expr.starred
        items := t.items.map Expr.starred
        query := Select.starredOption t.query }
  := by
  cases t
  rw [Expr.starred, if_neg h, Expr.starredAll_eq_map, Expr.starredAll_eq_map]

theorem Select.starred_eq (q : Select) :
  q.starred
    = { q with
        columns := q.columns.map SelectColumn.starred
        sources := q.sources.map (List.map TableRef.starred)
        filter := q.filter.starred
        groupBy := q.groupBy.map Expr.starred
        having := q.having.starred
        orderBy := q.orderBy.map OrderItem.starred }
  := by
  obtain ⟨distinct, columns, sources, filter, groupBy, having, orderBy, limit, offset, setOp⟩ := q
  rw [Select.starred, SelectColumn.starredAll_eq_map, Expr.starredAll_eq_map,
    OrderItem.starredAll_eq_map]
  cases sources with
  | none => rfl
  | some rs => rw [TableRef.starredOption, TableRef.starredAll_eq_map]; rfl

/-! Putting the star in the place of columns twice is the same as once. -/

mutual

theorem Expr.starred_starred : (e : Expr) → e.starred.starred = e.starred
  | .missing => by simp only [Expr.starred]
  | .of ⟨kind, operator, left, right, operand, table, column, value, name, args, items, distinct,
      query⟩ => by
    rw [Expr.starred]
    split
    next => rfl
    next h =>
      rw [Expr.starred, if_neg h, left.starred_starred, right.starred_starred,
        operand.starred_starred, Expr.starredAll_starredAll args, Expr.starredAll_starredAll items,
        Select.starredOption_starredOption query]

theorem Expr.starredAll_starredAll : (es : List Expr) →
    Expr.starredAll (Expr.starredAll es) = Expr.starredAll es
  | [] => rfl
  | e :: es => by
    rw [Expr.starredAll, Expr.starredAll, e.starred_starred, Expr.starredAll_starredAll es]

theorem Select.starredOption_starredOption : (q? : Option Select) →
    Select.starredOption (Select.starredOption q?) = Select.starredOption q?
  | none => by simp only [Select.starredOption]
  | some q => by rw [Select.starredOption, Select.starredOption, q.starred_starred]

theorem Select.starred_starred : (q : Select) → q.starred.starred = q.starred
  | ⟨distinct, columns, sources, filter, groupBy, having, orderBy, limit, offset, setOperation⟩ => by
    rw [Select.starred, Select.starred, SelectColumn.starredAll_starredAll columns,
      TableRef.starredOption_starredOption sources, filter.starred_starred,
      Expr.starredAll_starredAll groupBy, having.starred_starred,
      OrderItem.starredAll_starredAll orderBy]

theorem SelectColumn.starredAll_starredAll : (cs : List SelectColumn) →
    SelectColumn.starredAll (SelectColumn.starredAll cs) = SelectColumn.starredAll cs
  | [] => rfl
  | ⟨e, label⟩ :: cs => by
    rw [SelectColumn.starredAll, SelectColumn.starredAll, e.starred_starred,
      SelectColumn.starredAll_starredAll cs]

theorem OrderItem.starredAll_starredAll : (os : List OrderItem) →
    OrderItem.starredAll (OrderItem.starredAll os) = OrderItem.starredAll os
  | [] => rfl
  | ⟨e, desc⟩ :: os => by
    rw [OrderItem.starredAll, OrderItem.starredAll, e.starred_starred,
      OrderItem.starredAll_starredAll os]

theorem TableRef.starredOption_starredOption : (rs? : Option (List TableRef)) →
    TableRef.starredOption (TableRef.starredOption rs?) = TableRef.starredOption rs?
  | none => by simp only [TableRef.starredOption]
  | some rs => by
    rw [TableRef.starredOption, TableRef.starredOption, TableRef.starredAll_starredAll rs]

theorem TableRef.starredAll_starredAll : (rs : List TableRef) →
    TableRef.starredAll (TableRef.starredAll rs) = TableRef.starredAll rs
  | [] => rfl
  | ⟨table, label, join, on, subquery⟩ :: rs => by
    rw [TableRef.starredAll, TableRef.starredAll, on.starred_starred,
      Select.starredOption_starredOption subquery, TableRef.starredAll_starredAll rs]

end

/-! ### Reading the document of a term -/

theorem Node.nameOf_eq (name : String) (ms : List (String × Node)) :
  nameOf name ms = ((lookup? name ms).map nameText).getD ""
  := by
  apply congrArg (Option.getD · "")
  apply eq_map_lookup? (by rw [nameOfMember?])
  intro key n ms
  rw [nameOfMember?]
  cases nameOfMember? name ms <;> rfl

theorem Node.objectType_of_known {ms : List (String × Node)} {kind : TermKind}
    (hkind : kind ∈ TermKind.known) (htype : lookup? "type" ms = some (.text kind.name)) :
  objectType ms = kind.name
  := by
  have hlower : ∀ kind ∈ TermKind.known, Text.lower kind.name = kind.name := by decide
  simp [objectType, textOf?, htype, hlower kind hkind]

/-- The members of an object that describes a term, by what is looked up. -/
structure Term.Describes (t : Term) (left right operand : Option Node) (args items : List Node)
    (query : Option Node) (ms : List (String × Node)) : Prop where
  type : lookup? "type" ms = some (.text t.kind.name)
  operator : lookup? "operator" ms = presentText t.operator
  left : lookup? "left" ms = left
  right : lookup? "right" ms = right
  operand : lookup? "operand" ms = operand
  table : lookup? "table" ms = presentText t.table
  column : lookup? "column" ms = presentText t.column
  value : lookup? "value" ms = presentNode t.value
  name : lookup? "name" ms = presentText t.name
  args : lookup? "args" ms = presentList args
  items : lookup? "items" ms = presentList items
  distinct : lookup? "distinct" ms = presentFlag t.distinct
  query : lookup? "select" ms = query

theorem Term.describes_entries (t : Term) (left right operand query : Node)
    (args items : List Node) :
  t.Describes (presentNode left) (presentNode right) (presentNode operand) args items
    (presentNode query) (given (t.entries left right operand args items query))
  := by
  constructor <;>
    simp only [Term.entries, lookup?_given_cons, given_nil, lookup?, String.reduceEq, if_true, if_false,
      Option.or_none, Option.none_or]

@[simp]
theorem Node.map_arranged_presentText (f : Form) (s : String) :
  (presentText s).map (arranged f) = presentText s
  := by
  unfold presentText
  split <;> simp

@[simp]
theorem Node.map_arranged_presentFlag (f : Form) (b : Bool) :
  (presentFlag b).map (arranged f) = presentFlag b
  := by
  cases b <;> simp [presentFlag]

@[simp]
theorem Node.map_arranged_presentList (f : Form) (ns : List Node) :
  (presentList ns).map (arranged f) = presentList (ns.map (arranged f))
  := by
  cases ns <;> simp [presentList]

theorem Node.IsPlain.map_arranged_presentNode {n : Node} (h : n.IsPlain) (f : Form) :
  (presentNode n).map (arranged f) = presentNode n
  := by
  unfold presentNode
  split
  · rfl
  · rw [Option.map_some, h.arranged_eq]

/-- An arranged object describes the term by its arranged parts. -/
theorem Term.describes_arranged (t : Term) {left right operand query : Node}
    {args items : List Node} (hkind : t.kind ∈ TermKind.known) (hvalue : t.value.IsPlain)
    (h : (Node.object (given (t.entries left right operand args items query))).IsDocument)
    (f : Form) :
  ∃ ms, (Node.object (given (t.entries left right operand args items query))).arranged f = .object ms
    ∧ t.Describes ((presentNode left).map (arranged f)) ((presentNode right).map (arranged f))
      ((presentNode operand).map (arranged f)) (args.map (arranged f)) (items.map (arranged f))
      ((presentNode query).map (arranged (f.inside (isQueryType t.kind.name)))) ms
  := by
  obtain ⟨ms, hms, hlookup⟩ := h.lookup?_arranged f
  have hentries := t.describes_entries left right operand query args items
  rw [objectType_of_known hkind hentries.type] at hlookup
  refine ⟨ms, hms, ?_⟩
  constructor <;>
    simp only [hlookup, String.reduceEq, decide_false, Bool.and_false, decide_true, Bool.and_true,
      Form.inside, Bool.false_eq_true, if_false, hentries.type, hentries.operator, hentries.left,
      hentries.right, hentries.operand, hentries.table, hentries.column, hentries.value,
      hentries.name, hentries.args, hentries.items, hentries.distinct, hentries.query,
      map_arranged_presentText, map_arranged_presentFlag, map_arranged_presentList,
      hvalue.map_arranged_presentNode, Option.map_some, arranged_text]

theorem Node.getD_textOf? {ms : List (String × Node)} {name : String}
    (h : lookup? name ms = presentText s) :
  (textOf? name ms).getD "" = s
  := by
  unfold textOf?
  rw [h]
  by_cases hs : s = ""
  · simp [presentText, hs]
  · simp [presentText, hs]

theorem Node.getD_map_presentText (s : String) {read : Node → String} (h : read (.text s) = s) :
  ((presentText s).map read).getD "" = s
  := by
  by_cases hs : s = ""
  · simp [presentText, hs]
  · simp [presentText, hs, h]

theorem Node.nameOf_of_presentText {ms : List (String × Node)} {name : String}
    (h : lookup? name ms = presentText s) :
  nameOf name ms = s
  := by
  rw [nameOf_eq, h]
  apply getD_map_presentText s rfl

namespace Term.Describes

variable {t : Term} {left right operand query : Option Node} {args items : List Node}
  {ms : List (String × Node)} (h : t.Describes left right operand args items query ms)
variable {es : List Expr}

include h

theorem objectType_eq {kind : TermKind} (hkind : t.kind = kind)
    (hknown : kind ∈ TermKind.known) :
  objectType ms = kind.name
  := by
  subst hkind
  exact objectType_of_known hknown h.type

theorem read_binary {m n : Node} {l r : Expr} (hkind : t.kind = .binary) (hleft : left = some m)
    (hright : right = some n) (hm : Expr.read m = .ok l) (hn : Expr.read n = .ok r) :
  Expr.read (.object ms) = .ok (.binary t.operator l r)
  := by
  rw [Expr.read_object]
  delta Parts.assemble
  rw [h.objectType_eq hkind (by decide)]
  change (do
    return Expr.binary ((textOf? "operator" ms).getD "") (← Parts.expr _ "left")
      (← Parts.expr _ "right")) = _
  simp only [Parts.expr, Expr.readMember?_eq, h.left, h.right, hleft, hright, Option.map_some,
    Option.getD_some, hm, hn, getD_textOf? h.operator]
  rfl

theorem read_unary {n : Node} {e : Expr} (hkind : t.kind = .unary) (hoperand : operand = some n)
    (hn : Expr.read n = .ok e) :
  Expr.read (.object ms) = .ok (.unary t.operator e)
  := by
  rw [Expr.read_object]
  delta Parts.assemble
  rw [h.objectType_eq hkind (by decide)]
  change (do
    let e ← ((Expr.readMember? "operand" ms).getD (Parts.expr _ "expr"))
    return Expr.unary ((textOf? "operator" ms).getD "") e) = _
  simp only [Expr.readMember?_eq, h.operand, hoperand, Option.map_some, Option.getD_some, hn,
    getD_textOf? h.operator]
  rfl

theorem read_column (hkind : t.kind = .column) :
  Expr.read (.object ms)
    = .ok (if t.column = "*" then .star
        else .of { Term.blank .column with table := t.table, column := t.column })
  := by
  rw [Expr.read_object]
  delta Parts.assemble
  rw [h.objectType_eq hkind (by decide)]
  change (if nameOf "column" ms = "*" then Except.ok Expr.star else .ok (Parts.column ms)) = _
  simp only [nameOf_of_presentText h.column, Parts.column, nameOf_of_presentText h.table]
  split <;> rfl

theorem read_text (hkind : t.kind = .text) (hvalue : t.value = .text s) :
  Expr.read (.object ms) = .ok (.text s)
  := by
  rw [Expr.read_object]
  delta Parts.assemble
  rw [h.objectType_eq hkind (by decide)]
  change Except.ok (Expr.text (((lookup? "value" ms).map scalarText).getD "")) = _
  simp [h.value, hvalue, presentNode, isNull, scalarText]

theorem read_number (hkind : t.kind = .number) (hvalue : t.value = .text s) :
  Expr.read (.object ms) = .ok (.number s)
  := by
  rw [Expr.read_object]
  delta Parts.assemble
  rw [h.objectType_eq hkind (by decide)]
  change Except.ok (Expr.number (((lookup? "value" ms).map numberText).getD "")) = _
  simp [h.value, hvalue, presentNode, isNull, numberText, scalarText]

theorem read_bool {b : Bool} (hkind : t.kind = .bool) (hvalue : t.value = .bool b) :
  Expr.read (.object ms) = .ok (.bool b)
  := by
  rw [Expr.read_object]
  delta Parts.assemble
  rw [h.objectType_eq hkind (by decide)]
  change Except.ok (Expr.bool (truth (lookup? "value" ms))) = _
  simp [h.value, hvalue, presentNode, isNull, truth]

theorem read_null (hkind : t.kind = .null) :
  Expr.read (.object ms) = .ok .null
  := by
  rw [Expr.read_object]
  delta Parts.assemble
  rw [h.objectType_eq hkind (by decide)]
  rfl

theorem read_star (hkind : t.kind = .star) :
  Expr.read (.object ms) = .ok .star
  := by
  rw [Expr.read_object]
  delta Parts.assemble
  rw [h.objectType_eq hkind (by decide)]
  rfl

theorem read_param (hkind : t.kind = .param) (hvalue : t.value = .null) :
  Expr.read (.object ms) = .ok (.of { Term.blank .param with name := t.name })
  := by
  have hname : Parts.paramName ms = t.name := by
    rw [Parts.paramName, nameOf_of_presentText h.name, h.value, hvalue]
    split
    next hempty => exact hempty.symm
    next => rfl
  rw [Expr.read_object]
  delta Parts.assemble
  rw [h.objectType_eq hkind (by decide)]
  change Except.ok (Expr.of { Term.blank .param with name := Parts.paramName ms }) = _
  rw [hname]

theorem readArgs_eq (hargs : Expr.readAll args = .ok es) :
  Expr.readArgs ms = .ok (es, false)
  := by
  rw [Expr.readArgs_eq, h.args]
  cases args with
  | nil =>
    cases hargs
    rfl
  | cons n ns =>
    simp only [presentList, List.isEmpty_cons, Bool.false_eq_true, if_false, Option.map_some,
      Option.getD_some, Expr.argsOf, Expr.readList, hargs]
    rfl

theorem call_eq (hargs : Expr.readAll args = .ok es) (kind : TermKind) {parts : Parts}
    (hparts : parts.args = Expr.readArgs ms) :
  Parts.call kind ms parts
    = .ok (.of { Term.blank kind with name := t.name, args := es, distinct := t.distinct })
  := by
  have hname : ((lookup? "name" ms).map functionName).getD "" = t.name := by
    rw [h.name]
    apply getD_map_presentText t.name rfl
  rw [Parts.call, hparts, h.readArgs_eq hargs, h.distinct, hname]
  cases t.distinct <;> rfl

theorem read_call (hkind : t.kind = .function ∨ t.kind = .aggregate)
    (hargs : Expr.readAll args = .ok es) :
  Expr.read (.object ms)
    = .ok (.of { Term.blank t.kind with name := t.name, args := es, distinct := t.distinct })
  := by
  rw [Expr.read_object]
  delta Parts.assemble
  rcases hkind with hkind | hkind
  · rw [h.objectType_eq hkind (by decide), hkind]
    exact h.call_eq hargs .function rfl
  · rw [h.objectType_eq hkind (by decide), hkind]
    exact h.call_eq hargs .aggregate rfl

theorem read_list (hkind : t.kind = .list) (hvalue : t.value = .null)
    (hitems : Expr.readAll items = .ok es) :
  Expr.read (.object ms) = .ok (.list es)
  := by
  rw [Expr.read_object]
  delta Parts.assemble
  rw [h.objectType_eq hkind (by decide)]
  change (do
    return Expr.list (← (Expr.readListMember? "items" ms).getD
      ((Expr.readListMember? "value" ms).getD (.ok [])))) = _
  simp only [Expr.readListMember?_eq, h.items, h.value, hvalue]
  cases items with
  | nil =>
    cases hitems
    rfl
  | cons n ns =>
    simp only [presentList, List.isEmpty_cons, Bool.false_eq_true, if_false, Option.map_some,
      Option.getD_some, Expr.readList, hitems]
    rfl

theorem read_subquery (hkind : t.kind = .subquery) :
  Expr.read (.object ms)
    = .ok (.of { Term.blank .subquery with
        query := query.bind fun n => (Select.read Select.blank n).result.toOption })
  := by
  rw [Expr.read_object]
  delta Parts.assemble
  rw [h.objectType_eq hkind (by decide)]
  change Except.ok (Expr.of { Term.blank .subquery with query := Select.readMember? ms }) = _
  rw [Select.readMember?_eq, h.query]

end Term.Describes

end CqlGateway

import CqlGateway.Proofs.Statement.Document

/-!
# Arranged documents

Before a document is read, the queries of its subqueries are put into canonical order. So what is
read is a document in one of two forms: settled, which is as written outside of such queries, or
sorted. In both, a member that is looked up is the member of the document as written, arranged in its
turn.

A document that gives no place twice is also left as it is when its records are accumulated.
-/

namespace CqlGateway

open Node

/-- The forms in which documents are read. -/
inductive Form where
  /-- As written, the queries of subqueries apart. -/
  | settled
  /-- In canonical order. -/
  | sorted
  deriving DecidableEq

/-- The form of a part of a document, which may be the query of a subquery. -/
def Form.inside (f : Form) (query : Bool) : Form :=
  if query then .sorted else f

/-- The members of an object in the order of a form. -/
def Form.order {α : Type} : Form → List (String × α) → List (String × α)
  | .settled, ms => ms
  | .sorted, ms => sortMembers ms

theorem Form.mem_of_mem_order {α : Type} {f : Form} {ms : List (String × α)} {m : String × α}
    (h : m ∈ f.order ms) :
  m ∈ ms
  := by
  cases f with
  | settled => exact h
  | sorted => exact mem_of_mem_sortMembers h

theorem Form.nodup_order {α : Type} (f : Form) {ms : List (String × α)}
    (h : (ms.map Prod.fst).Nodup) :
  ((f.order ms).map Prod.fst).Nodup
  := by
  cases f with
  | settled => exact h
  | sorted => exact nodup_of_ascending (ascending_sortMembers ms)

@[simp]
theorem Form.lookup?_order (f : Form) (name : String) (ms : List (String × Node)) :
  lookup? name (f.order ms) = lookup? name ms
  := by
  cases f with
  | settled => rfl
  | sorted => apply lookup?_sortMembers

namespace Node

variable {ms : List (String × Node)}

/-- A document in a form. -/
def arranged (f : Form) (n : Node) : Node :=
  match f with
  | .settled => n.withCanonicalQueries
  | .sorted => n.canonical

@[simp]
theorem arranged_null (f : Form) :
  Node.null.arranged f = .null
  := by
  cases f <;> rfl

@[simp]
theorem arranged_bool (f : Form) (b : Bool) :
  (Node.bool b).arranged f = .bool b
  := by
  cases f <;> rfl

@[simp]
theorem arranged_text (f : Form) (s : String) :
  (Node.text s).arranged f = .text s
  := by
  cases f <;> rfl

@[simp]
theorem arranged_list (f : Form) (ns : List Node) :
  (Node.list ns).arranged f = .list (ns.map (arranged f))
  := by
  cases f with
  | settled => exact congrArg Node.list (itemsWithCanonicalQueries_eq_map ns)
  | sorted => exact congrArg Node.list (canonicalItems_eq_map ns)

theorem IsPlain.arranged_eq {n : Node} (h : n.IsPlain) (f : Form) :
  n.arranged f = n
  := by
  cases f with
  | settled => exact h.withCanonicalQueries_eq
  | sorted => exact h.canonical_eq

/-- An object is arranged by arranging its members; the query of a subquery is sorted. -/
theorem IsDocument.arranged_object (h : (Node.object ms).IsDocument) (f : Form) :
  (Node.object ms).arranged f
    = .object (f.order (ms.map fun m =>
        (m.1, m.2.arranged (f.inside (isQueryType (objectType ms) && m.1 = "select")))))
  := by
  cases f with
  | settled =>
    cases h with
    | object h =>
      rw [arranged, Node.withCanonicalQueries, membersWithCanonicalQueries_eq_map]
      congr 1
      apply List.map_congr_left
      intro m hm
      rw [(h m hm).plain_eq]
      unfold Form.inside
      split <;> rfl
  | sorted =>
    rw [arranged, canonical, canonicalMembers_eq_map]
    simp [Form.order, Form.inside, arranged]

theorem lookup?_map (name : String) (g : String → Node → Node) (ms : List (String × Node)) :
  lookup? name (ms.map fun m => (m.1, g m.1 m.2)) = (lookup? name ms).map (g name)
  := by
  induction ms with
  | nil => rfl
  | cons m ms ih =>
    rw [List.map_cons, lookup?_cons, ih, lookup?_cons]
    cases lookup? name ms with
    | some found => rfl
    | none =>
      by_cases hname : m.1 = name
      · simp [hname]
      · simp [hname]

theorem IsDocument.lookup?_arranged (h : (Node.object ms).IsDocument) (f : Form) :
  ∃ arrangedMembers, (Node.object ms).arranged f = .object arrangedMembers
    ∧ ∀ name, lookup? name arrangedMembers
      = (lookup? name ms).map
          (arranged (f.inside (isQueryType (objectType ms) && name = "select")))
  := by
  refine ⟨_, h.arranged_object f, ?_⟩
  intro name
  rw [Form.lookup?_order, lookup?_map name fun key n =>
    n.arranged (f.inside (isQueryType (objectType ms) && key = "select"))]

/-- Members that are not the query of a subquery are all arranged alike. -/
theorem IsDocument.arranged_given {es : List (String × Option Node)}
    (h : (Node.object (given es)).IsDocument) (hnames : (es.map Prod.fst).Nodup)
    (hselect : "select" ∉ es.map Prod.fst) (f : Form) :
  (Node.object (given es)).arranged f
    = .object (given (f.order (es.map fun e => (e.1, e.2.map (arranged f)))))
  := by
  have hmembers : (given es).map (fun m =>
        (m.1, m.2.arranged (f.inside (isQueryType (objectType (given es)) && m.1 = "select"))))
      = given (es.map fun e => (e.1, e.2.map (arranged f))) := by
    rw [given_map]
    apply List.map_congr_left
    intro m hm
    have hname : m.1 ≠ "select" := by
      intro hname
      exact hselect (hname ▸ List.mem_map_of_mem (mem_given.mp hm))
    simp [hname, Form.inside]
  rw [h.arranged_object f, hmembers]
  cases f with
  | settled => rfl
  | sorted =>
    rw [Form.order, Form.order, sortMembers_given]
    simpa [Function.comp_def] using hnames

/-! ### Documents that accumulate nothing -/

/-- A document is left as it is when its records are accumulated. The flag says whether its objects
are records. -/
def IsStable (record : Bool) (n : Node) : Prop :=
  ∀ depth, accumulate depth record n = n

theorem isStable_null (record : Bool) :
  Node.null.IsStable record
  := by
  intro depth
  cases depth <;> cases record <;> rfl

theorem isStable_bool (record : Bool) (b : Bool) :
  (Node.bool b).IsStable record
  := by
  intro depth
  cases depth <;> cases record <;> rfl

theorem isStable_text (record : Bool) (s : String) :
  (Node.text s).IsStable record
  := by
  intro depth
  cases depth <;> cases record <;> rfl

theorem isStable_list {record : Bool} {ns : List Node} (h : ∀ n ∈ ns, n.IsStable record) :
  (Node.list ns).IsStable record
  := by
  intro depth
  cases depth with
  | zero => rfl
  | succ depth =>
    have hitems : ns.map (accumulate depth record) = ns := by
      conv_rhs => rw [← List.map_id' ns]
      apply List.map_congr_left
      intro n hn
      apply h n hn
    cases record <;> exact congrArg Node.list hitems

/-- An expression is stable if its parts are; the query of a subquery is a record. -/
theorem isStable_expression
    (h : ∀ m ∈ ms, m.2.IsStable (isQueryType (objectType ms) && m.1 = "select")) :
  (Node.object ms).IsStable false
  := by
  intro depth
  cases depth with
  | zero => rfl
  | succ depth =>
    rw [accumulate]
    congr 1
    conv_rhs => rw [← List.map_id' ms]
    apply List.map_congr_left
    intro m hm
    exact congrArg (Prod.mk m.1) (h m hm depth)

theorem accumulated_of_nodup (earlier : List (String × Node))
    (h : ((earlier ++ ms).map fun m => Text.fold m.1).Nodup) :
  accumulated earlier ms = ms
  := by
  induction ms generalizing earlier with
  | nil => rfl
  | cons m ms ih =>
    have hnone : (earlier.filter fun e => decide (Text.fold e.1 = Text.fold m.1)) = [] := by
      rw [List.filter_eq_nil_iff]
      intro e he heq
      rw [List.map_append, List.nodup_append] at h
      exact h.2.2 _ (List.mem_map_of_mem he) _ (by simp) (of_decide_eq_true heq)
    have hrest : accumulated (earlier ++ [m]) ms = ms := by
      apply ih
      rwa [List.append_assoc]
    rw [accumulated, hrest, hnone, List.map_nil, holding_nil, ite_self]

/-- A record whose members have different names is stable if its lists, its queries and its
expressions are. -/
theorem isStable_record (hnames : (ms.map fun m => Text.fold m.1).Nodup)
    (hlasting : ∀ m ∈ ms, isLasting m.1 = true → m.2.IsStable true)
    (hexprs : ∀ m ∈ ms, expressionPlaces.contains (Text.fold m.1) = true → m.2.IsStable false) :
  (Node.object ms).IsStable true
  := by
  intro depth
  cases depth with
  | zero => rfl
  | succ depth =>
    rw [accumulate, accumulated_of_nodup [] hnames]
    congr 1
    conv_rhs => rw [← List.map_id' ms]
    apply List.map_congr_left
    intro m hm
    dsimp only
    split
    next h => rw [hlasting m hm h depth]
    next =>
      split
      next h => rw [hexprs m hm h depth]
      next => rfl

end Node

end CqlGateway

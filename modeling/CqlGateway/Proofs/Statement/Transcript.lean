import CqlGateway.Proofs.Statement.Starred

/-!
# Transcripts

A transcript of an expression or a query is its document, as a raw node: it stays as it is when it is
accumulated, in each of its forms, and putting the star in the place of columns called `*` leads to a
document of the same depth. Places without an expression or a query have the transcript null.
-/

namespace CqlGateway

open Node

variable {ns : List Node}

/-! ### Members of transcripts -/

namespace Node

variable {es : List (String × Option Node)} {record : Bool} {m n : Node}

/-- The depth of a member, nothing if it is left out. -/
def memberDepth (o : Option Node) : Nat :=
  (o.map depth).getD 0

/-- The depth of a list that is left out when it is empty. -/
def listDepth (ns : List Node) : Nat :=
  memberDepth (presentList ns)

theorem membersDepth_given (es : List (String × Option Node)) :
  membersDepth (given es) = (es.map fun e => memberDepth e.2).foldr max 0
  := by
  induction es with
  | nil => rfl
  | cons e es ih =>
    obtain ⟨name, o⟩ := e
    cases o with
    | none => simpa [memberDepth] using ih
    | some n => simp [membersDepth, memberDepth, ih]

theorem depth_given_congr {fs : List (String × Option Node)}
    (h : (es.map fun e => memberDepth e.2) = fs.map fun e => memberDepth e.2) :
  (Node.object (given es)).depth = (Node.object (given fs)).depth
  := by
  rw [depth, depth, membersDepth_given, membersDepth_given, h]

@[simp]
theorem memberDepth_none :
  memberDepth none = 0
  := rfl

@[simp]
theorem memberDepth_some (n : Node) :
  memberDepth (some n) = n.depth
  := rfl

@[simp]
theorem memberDepth_presentText (s : String) :
  memberDepth (presentText s) = 0
  := by
  unfold presentText
  split <;> rfl

@[simp]
theorem memberDepth_presentFlag (b : Bool) :
  memberDepth (presentFlag b) = 0
  := by
  cases b <;> rfl

@[simp]
theorem memberDepth_presentNode (n : Node) :
  memberDepth (presentNode n) = n.depth
  := by
  cases n <;> rfl

@[simp]
theorem memberDepth_presentList (ns : List Node) :
  memberDepth (presentList ns) = listDepth ns
  := rfl

theorem itemsDepth_congr {ms : List Node} (h : List.Forall₂ (fun n m => m.depth = n.depth) ns ms) :
  itemsDepth ms = itemsDepth ns
  := by
  induction h with
  | nil => rfl
  | cons hn _ ih => rw [itemsDepth, itemsDepth, hn, ih]

theorem listDepth_congr {ms : List Node} (h : List.Forall₂ (fun n m => m.depth = n.depth) ns ms) :
  listDepth ms = listDepth ns
  := by
  have hitems := itemsDepth_congr h
  cases h with
  | nil => rfl
  | cons _ _ => simp [listDepth, memberDepth, presentList, depth, hitems]

theorem isDocument_given (h : ∀ e ∈ es, ∀ n, e.2 = some n → n.IsDocument) :
  (Node.object (given es)).IsDocument
  := by
  apply IsDocument.object
  intro m hm
  exact h _ (mem_given.mp hm) m.2 rfl

theorem IsDocument.presentText {s : String} (h : presentText s = some n) :
  n.IsDocument
  := by
  unfold Node.presentText at h
  split at h
  · cases h
  · cases h
    exact .text s

theorem IsDocument.presentFlag {b : Bool} (h : presentFlag b = some n) :
  n.IsDocument
  := by
  cases b <;> cases h
  exact .bool true

theorem IsDocument.presentNode (hn : n.IsDocument) (h : presentNode n = some m) :
  m.IsDocument
  := by
  unfold Node.presentNode at h
  split at h
  · cases h
  · cases h
    exact hn

theorem IsDocument.presentList (hns : ∀ n ∈ ns, n.IsDocument) (h : presentList ns = some m) :
  m.IsDocument
  := by
  unfold Node.presentList at h
  split at h
  · cases h
  · cases h
    exact .list hns

/-- A node that is stable in each of its forms. -/
def IsSteady (record : Bool) (n : Node) : Prop :=
  ∀ f, (n.arranged f).IsStable record

theorem IsSteady.null (record : Bool) :
  Node.null.IsSteady record
  := by
  intro f
  rw [arranged_null]
  apply isStable_null

theorem IsSteady.text (record : Bool) (s : String) :
  (Node.text s).IsSteady record
  := by
  intro f
  rw [arranged_text]
  apply isStable_text

theorem IsSteady.bool (record b : Bool) :
  (Node.bool b).IsSteady record
  := by
  intro f
  rw [arranged_bool]
  apply isStable_bool

theorem IsSteady.list (h : ∀ n ∈ ns, n.IsSteady record) :
  (Node.list ns).IsSteady record
  := by
  intro f
  rw [arranged_list]
  apply isStable_list
  intro n hn
  obtain ⟨m, hm, rfl⟩ := List.mem_map.mp hn
  apply h m hm

theorem IsSteady.presentText {s : String} (h : presentText s = some n) :
  n.IsSteady record
  := by
  unfold Node.presentText at h
  split at h
  · cases h
  · cases h
    apply IsSteady.text

theorem IsSteady.presentFlag {b : Bool} (h : presentFlag b = some n) :
  n.IsSteady record
  := by
  cases b <;> cases h
  exact .bool record true

theorem IsSteady.presentNode (hn : n.IsSteady record) (h : presentNode n = some m) :
  m.IsSteady record
  := by
  unfold Node.presentNode at h
  split at h
  · cases h
  · cases h
    exact hn

theorem IsSteady.presentList (hns : ∀ n ∈ ns, n.IsSteady record) (h : presentList ns = some m) :
  m.IsSteady record
  := by
  unfold Node.presentList at h
  split at h
  · cases h
  · cases h
    exact .list hns

/-- Whether what a place of a record holds is accumulated: as records, or as expressions. -/
def accumulates (record : Bool) (name : String) : Bool :=
  if record then isLasting name else expressionPlaces.contains (Text.fold name)

/-- A node that is stable in a place of a record. -/
def IsStableIn (name : String) (n : Node) : Prop :=
  ∀ record, accumulates record name = true → n.IsStable record

/-- A node that is stable in a place of a record, in each of its forms. -/
def IsSteadyIn (name : String) (n : Node) : Prop :=
  ∀ record, accumulates record name = true → n.IsSteady record

theorem IsSteady.inPlace (h : n.IsSteady record) {name : String}
    (hname : accumulates (!record) name = false) :
  n.IsSteadyIn name
  := by
  intro record' hrecord
  have heq : record' = record := by
    cases record <;> cases record' <;> simp_all
  exact heq ▸ h

theorem isSteadyIn_of_idle {name : String} (n : Node)
    (hname : ∀ record, accumulates record name = false) :
  n.IsSteadyIn name
  := by
  intro record hrecord
  rw [hname record] at hrecord
  cases hrecord

theorem isStable_given (hnames : (es.map Prod.fst).Nodup) (hfold : ∀ e ∈ es, Text.fold e.1 = e.1)
    (h : ∀ e ∈ es, ∀ n, e.2 = some n → n.IsStableIn e.1) :
  (Node.object (given es)).IsStable true
  := by
  apply isStable_record
  · have hmap : (given es).map (fun m => Text.fold m.1) = (given es).map Prod.fst := by
      apply List.map_congr_left
      intro m hm
      exact hfold (m.1, some m.2) (mem_given.mp hm)
    rw [hmap]
    exact hnames.sublist (sublist_given es)
  · intro m hm
    exact h (m.1, some m.2) (mem_given.mp hm) m.2 rfl true
  · intro m hm
    exact h (m.1, some m.2) (mem_given.mp hm) m.2 rfl false

theorem isSteady_record (hdocument : (Node.object (given es)).IsDocument)
    (hnames : (es.map Prod.fst).Nodup) (hselect : "select" ∉ es.map Prod.fst)
    (hfold : ∀ name ∈ es.map Prod.fst, Text.fold name = name)
    (h : ∀ e ∈ es, ∀ n, e.2 = some n → n.IsSteadyIn e.1) :
  (Node.object (given es)).IsSteady true
  := by
  intro f
  rw [hdocument.arranged_given hnames hselect f]
  apply isStable_given
  · apply Form.nodup_order
    simpa [Function.comp_def] using hnames
  · intro e' he'
    obtain ⟨e, he, rfl⟩ := List.mem_map.mp (Form.mem_of_mem_order he')
    exact hfold e.1 (List.mem_map_of_mem he)
  · intro e' he' n hn
    obtain ⟨e, he, rfl⟩ := List.mem_map.mp (Form.mem_of_mem_order he')
    obtain ⟨m, hm, rfl⟩ := Option.map_eq_some_iff.mp hn
    exact fun record hrecord => h e he m hm record hrecord f

/-- An expression is steady if its parts are; the query of a subquery is a record. -/
theorem isSteady_expression {type : String}
    (hdocument : (Node.object (given es)).IsDocument)
    (htype : lookup? "type" (given es) = some (.text type))
    (h : ∀ e ∈ es, ∀ n, e.2 = some n →
      n.IsSteady (isQueryType (Text.lower type) && e.1 = "select")) :
  (Node.object (given es)).IsSteady false
  := by
  intro f
  obtain ⟨ms, hms, hlookup⟩ := hdocument.lookup?_arranged f
  have hobject : objectType ms = Text.lower type := by
    simp [objectType, textOf?, hlookup, htype]
  rw [hms]
  apply isStable_expression
  rw [hobject]
  rw [hdocument.arranged_object f] at hms
  cases hms
  intro m' hm'
  obtain ⟨m, hm, rfl⟩ := List.mem_map.mp (Form.mem_of_mem_order hm')
  exact h (m.1, some m.2) (mem_given.mp hm) m.2 rfl _

end Node

/-! ### Expressions -/

/-- The transcript of an expression or of the place of one. -/
structure Expr.HasTranscript (e : Expr) (n : Node) : Prop where
  written : e.WrittenAs n
  document : n.IsDocument
  steady : n.IsSteady false
  starred : ∃ m, e.starred.WrittenAs m ∧ m.depth = n.depth

/-- The transcript of a query or of the place of one. -/
structure Select.HasTranscript (q? : Option Select) (n : Node) : Prop where
  written : Select.WrittenAs q? n
  document : n.IsDocument
  steady : n.IsSteady true
  starred : ∃ m, Select.WrittenAs (Select.starredOption q?) m ∧ m.depth = n.depth

theorem Expr.hasTranscript_missing :
  Expr.missing.HasTranscript .null
  where
  written := ⟨.null, rfl, rfl⟩
  document := .null
  steady := .null false
  starred := ⟨.null, ⟨.null, rfl, rfl⟩, rfl⟩

theorem Select.hasTranscript_none :
  Select.HasTranscript none .null
  where
  written := ⟨.null, rfl, rfl⟩
  document := .null
  steady := .null true
  starred := ⟨.null, ⟨.null, rfl, rfl⟩, rfl⟩

theorem exists_forall₂ {α β : Type} {R : α → β → Prop} {as : List α}
    (h : ∀ a ∈ as, ∃ b, R a b) :
  ∃ bs, List.Forall₂ R as bs
  := by
  induction as with
  | nil => exact ⟨[], .nil⟩
  | cons a as ih =>
    rw [List.forall_mem_cons] at h
    obtain ⟨b, hb⟩ := h.1
    obtain ⟨bs, hbs⟩ := ih h.2
    exact ⟨b :: bs, .cons hb hbs⟩

/-- The documents of a list with the star in the place of every column called `*`. -/
theorem exists_starred_of_forall₂ {α : Type} {R S : α → Node → Prop} {starred : α → α}
    (hR : ∀ a n, R a n → ∃ m, S (starred a) m ∧ m.depth = n.depth) {as : List α}
    (h : List.Forall₂ R as ns) :
  ∃ ms, List.Forall₂ S (as.map starred) ms ∧ List.Forall₂ (fun n m => m.depth = n.depth) ns ms
  := by
  induction h with
  | nil => exact ⟨[], .nil, .nil⟩
  | cons ha _ ih =>
    obtain ⟨m, hm, hdepth⟩ := hR _ _ ha
    obtain ⟨ms, hms, hdepths⟩ := ih
    exact ⟨m :: ms, .cons hm hms, .cons hdepth hdepths⟩

theorem forall_of_forall₂ {α β : Type} {R : α → β → Prop} {P : β → Prop} {as : List α}
    {bs : List β} (h : List.Forall₂ R as bs) (hP : ∀ a b, R a b → P b) :
  ∀ b ∈ bs, P b
  := by
  induction h with
  | nil => exact List.forall_mem_nil P
  | cons hab _ ih => exact List.forall_mem_cons.mpr ⟨hP _ _ hab, ih⟩

section

variable {t : Term} {left right operand query : Node} {args items : List Node}
  (hleft : t.left.HasTranscript left) (hright : t.right.HasTranscript right)
  (hoperand : t.operand.HasTranscript operand) (hvalue : t.value.IsPlain)
  (hsteady : t.value.IsSteady false) (hargs : List.Forall₂ Expr.HasTranscript t.args args)
  (hitems : List.Forall₂ Expr.HasTranscript t.items items)
  (hquery : Select.HasTranscript t.query query)

include hleft hright hoperand hvalue hargs hitems hquery

theorem Term.isDocument_entries :
  (Node.object (given (t.entries left right operand args items query))).IsDocument
  := by
  apply isDocument_given
  simp only [Term.entries, List.forall_mem_cons]
  refine ⟨?_, fun _ => .presentText, fun _ => hleft.document.presentNode,
    fun _ => hright.document.presentNode, fun _ => hoperand.document.presentNode,
    fun _ => .presentText, fun _ => .presentText,
    fun _ => (isDocument_of_isPlain hvalue).presentNode, fun _ => .presentText,
    fun _ => .presentList ?_, fun _ => .presentList ?_, fun _ => .presentFlag,
    fun _ => hquery.document.presentNode, List.forall_mem_nil _⟩
  · rintro n ⟨⟩
    exact .text _
  · exact forall_of_forall₂ hargs fun _ _ h => h.document
  · exact forall_of_forall₂ hitems fun _ _ h => h.document

theorem Term.writtenAs_entries :
  (Expr.of t).WrittenAs (.object (given (t.entries left right operand args items query)))
  := by
  apply Expr.writtenAs_of hleft.written hright.written hoperand.written hvalue _ _ hquery.written
  · exact hargs.imp fun _ _ h => h.written
  · exact hitems.imp fun _ _ h => h.written

include hsteady in
/-- A query is found in subqueries only, so every other part is read as an expression. -/
theorem Term.isSteady_entries (hsubquery : query = .null ∨ t.kind = .subquery) :
  (Node.object (given (t.entries left right operand args items query))).IsSteady false
  := by
  have hdocument := Term.isDocument_entries hleft hright hoperand hvalue hargs hitems hquery
  have htype := (t.describes_entries left right operand query args items).type
  apply isSteady_expression hdocument htype
  simp only [Term.entries, List.forall_mem_cons, String.reduceEq, decide_false, Bool.and_false,
    decide_true, Bool.and_true]
  refine ⟨?_, fun _ => .presentText, fun _ => hleft.steady.presentNode,
    fun _ => hright.steady.presentNode, fun _ => hoperand.steady.presentNode,
    fun _ => .presentText, fun _ => .presentText, fun _ => hsteady.presentNode,
    fun _ => .presentText, fun _ => .presentList ?_, fun _ => .presentList ?_,
    fun _ => .presentFlag, ?_, List.forall_mem_nil _⟩
  · rintro n ⟨⟩
    apply IsSteady.text
  · exact forall_of_forall₂ hargs fun _ _ h => h.steady
  · exact forall_of_forall₂ hitems fun _ _ h => h.steady
  · rcases hsubquery with rfl | hsubquery
    · rintro n ⟨⟩
    · have htype : isQueryType (Text.lower t.kind.name) = true := by
        rw [hsubquery]
        decide
      rw [htype]
      exact fun _ => hquery.steady.presentNode

include hsteady in
theorem Expr.hasTranscript_of (hsubquery : query = .null ∨ t.kind = .subquery)
    (hstar : ¬ (t.kind = .column ∧ t.column = "*")) :
  (Expr.of t).HasTranscript (.object (given (t.entries left right operand args items query)))
  := by
  refine ⟨Term.writtenAs_entries hleft hright hoperand hvalue hargs hitems hquery,
    Term.isDocument_entries hleft hright hoperand hvalue hargs hitems hquery,
    Term.isSteady_entries hleft hright hoperand hvalue hsteady hargs hitems hquery hsubquery, ?_⟩
  obtain ⟨left', hleft', dleft⟩ := hleft.starred
  obtain ⟨right', hright', dright⟩ := hright.starred
  obtain ⟨operand', hoperand', doperand⟩ := hoperand.starred
  obtain ⟨args', hargs', dargs⟩ := exists_starred_of_forall₂ (fun _ _ h => h.starred) hargs
  obtain ⟨items', hitems', ditems⟩ := exists_starred_of_forall₂ (fun _ _ h => h.starred) hitems
  obtain ⟨query', hquery', dquery⟩ := hquery.starred
  rw [starred_of hstar]
  refine ⟨_, writtenAs_of hleft' hright' hoperand' hvalue hargs' hitems' hquery', ?_⟩
  apply depth_given_congr
  simp only [Term.entries, List.map_cons, memberDepth_presentNode, memberDepth_presentText,
    memberDepth_presentList, dleft, dright, doperand, listDepth_congr dargs, listDepth_congr ditems,
    dquery]

end

end CqlGateway

import CqlGateway.Proofs.Statement.Declaration
import Mathlib.Data.List.Nodup

/-!
# Statements read back from their documents

The document of a statement gives its kind and its members, sorted by name. If the members fill the
slots of the kind, then reading the document gives the statement, with the star in the place of
columns called `*`.
-/

namespace CqlGateway

open Node Reading

/-! ### Names of kinds -/

theorem StatementKind.lower_name (kind : StatementKind) :
  Text.lower kind.name = kind.name
  := by
  cases kind <;> decide

theorem StatementKind.ofName?_name (kind : StatementKind) :
  StatementKind.ofName? kind.name = some kind
  := by
  cases kind <;> decide

theorem StatementKind.name_ne_empty (kind : StatementKind) :
  kind.name ≠ ""
  := by
  cases kind <;> decide

namespace Statement

/-! ### Columns called `*` -/

/-- A statement with the star in the place of every column called `*`. -/
def starred : Statement → Statement
  | .createIndex s =>
    .createIndex { s with
      columns := s.columns.map (List.map IndexColumn.starred)
      filter := s.filter.starred }
  | .createView s => .createView { s with definition := Select.starredOption s.definition }
  | .select s => .select s.starred
  | .insert s => .insert { s with query := Select.starredOption s.query }
  | .update s =>
    .update { s with
      sources := s.sources.map TableRef.starred
      assignments := s.assignments.map (List.map Assignment.starred)
      filter := s.filter.starred
      orderBy := s.orderBy.map OrderItem.starred }
  | .delete s =>
    .delete { s with
      sources := s.sources.map TableRef.starred
      filter := s.filter.starred
      orderBy := s.orderBy.map OrderItem.starred }
  | s => s

theorem kind_starred (s : Statement) :
  s.starred.kind = s.kind
  := by
  cases s <;> rfl

/-! ### Documents of statements -/

/-- The document of a statement. -/
def WrittenAs (s : Statement) (n : Node) : Prop :=
  ∃ j, s.toJson? = some j ∧ ofJson j = n

/-- The members of the document of a statement besides its kind. -/
def HasMembers (s : Statement) (es : List (String × Option Node)) : Prop :=
  ∃ ms, s.members? = some ms ∧ ofMembers ms = given es

/-- The members of a statement with its kind. -/
def withKind (s : Statement) (es : List (String × Option Node)) : List (String × Option Node) :=
  ("kind", some (.text s.kind.name)) :: es

/-- Names that a document can give to the members of a statement: each once, in folded form. -/
def AreMemberNames (names : List String) : Prop :=
  names.Nodup ∧ ∀ name ∈ names, Text.fold name = name

instance (names : List String) :
    Decidable (AreMemberNames names) :=
  inferInstanceAs (Decidable (_ ∧ _))

theorem HasMembers.written {s : Statement} {es : List (String × Option Node)} (h : s.HasMembers es)
    (hnames : ((s.withKind es).map Prod.fst).Nodup) :
  s.WrittenAs (.object (given (sortMembers (s.withKind es))))
  := by
  obtain ⟨ms, hms, hes⟩ := h
  refine ⟨.object (sortMembers (("kind", .text s.kind.name) :: ms)), ?_, ?_⟩
  · rw [toJson?, hms]
    rfl
  · have hmembers : ofMembers (("kind", .text s.kind.name) :: ms) = given (s.withKind es) := by
      rw [ofMembers, hes]
      rfl
    rw [ofJson, ← sortMembers_given hnames, ← hmembers]
    simp only [ofMembers_eq_map, sortMembers_map]

/-- The depth of a document does not depend on the order of its members. -/
theorem depth_sortMembers_congr {es fs : List (String × Option Node)}
    (h : (es.map fun e => (e.1, memberDepth e.2)) = fs.map fun e => (e.1, memberDepth e.2)) :
  (Node.object (given (sortMembers es))).depth = (Node.object (given (sortMembers fs))).depth
  := by
  have hsorted (es : List (String × Option Node)) :
      ((sortMembers es).map fun e => memberDepth e.2)
        = (sortMembers (es.map fun e => (e.1, memberDepth e.2))).map Prod.snd := by
    rw [sortMembers_map, List.map_map]
    rfl
  apply depth_given_congr
  rw [hsorted, hsorted, h]

end Statement

/-! ### Reading the kind -/

theorem Statement.gives_fillKind {kind : String} {ms : List (String × Node)} (start : String)
    (hfold : ∀ m ∈ ms, Text.fold m.1 = m.1) (hkind : ∀ m ∈ ms, m.1 = "kind" → m.2 = .text kind)
    (h : start = kind ∨ "kind" ∈ ms.map Prod.fst) :
  (record fillKind start (.object ms)).Gives kind
  := by
  rw [record]
  induction ms generalizing start with
  | nil =>
    rcases h with rfl | h
    · exact gives_pure start
    · cases h
  | cons m ms ih =>
    rw [List.forall_mem_cons] at hfold hkind
    rw [List.foldlM_cons]
    dsimp only
    rw [hfold.1]
    by_cases hm : m.1 = "kind"
    · have hgives : (fillKind start m.1 m.2).Gives kind := by
        rw [hkind.1 hm, fillKind, if_pos hm]
        exact gives_pure kind
      exact hgives.bind (ih kind hfold.2 hkind.2 (.inl rfl))
    · have hgives : (fillKind start m.1 m.2).Gives start := by
        rw [fillKind, if_neg hm]
        exact gives_pure start
      refine hgives.bind (ih start hfold.2 hkind.2 ?_)
      rcases h with h | h
      · exact .inl h
      · rw [List.map_cons, List.mem_cons] at h
        exact .inr (h.resolve_left fun heq => hm heq.symm)

/-! ### Reading the members -/

namespace Statement

section

variable {es : List (String × Option Node)} (hnames : AreMemberNames (es.map Prod.fst))

include hnames

theorem kindName_given {kind : String} (hkind : ("kind", some (.text kind)) ∈ es) :
  kindName (.object (given es)) = .ok kind
  := by
  have hgives : (record fillKind "" (.object (given es))).Gives kind := by
    apply gives_fillKind
    · intro m hm
      exact hnames.2 m.1 (List.mem_map_of_mem (mem_given.mp hm))
    · intro m hm hname
      have heq := List.inj_on_of_nodup_map hnames.1 (mem_given.mp hm) hkind hname
      exact Option.some.inj (congrArg Prod.snd heq)
    · right
      have hmem : ("kind", .text kind) ∈ given es := mem_given.mpr hkind
      exact List.mem_map_of_mem hmem
  rw [kindName, gives_iff_result.mp hgives]

/-- The document of a statement is settled if its members suit their places. -/
theorem settledRecord_given (hsuits : AllSuit es) :
  (Node.object (given es)).settledRecord = .object (given (arrangedEntries .settled es))
  := by
  have hmembers : membersWithCanonicalQueries false (given es)
      = given (arrangedEntries .settled es) := by
    rw [membersWithCanonicalQueries_eq_map, arrangedEntries, given_map]
    simp [arranged]
  have hstable : (Node.object (given (arrangedEntries .settled es))).IsStable true := by
    apply isStable_given
    · simpa [arrangedEntries, Function.comp_def] using hnames.1
    · intro e' he'
      obtain ⟨e, he, rfl⟩ := List.mem_map.mp he'
      exact hnames.2 e.1 (List.mem_map_of_mem he)
    · intro e' he' n hn
      obtain ⟨e, he, rfl⟩ := List.mem_map.mp he'
      obtain ⟨m, hm, rfl⟩ := Option.map_eq_some_iff.mp hn
      exact fun record hrecord => (hsuits e he m hm).steady record hrecord .settled
  rw [settledRecord, hmembers]
  exact hstable _

/-- A document gives a statement if its members fill the slots of the kind that it names. -/
theorem ofNode_given {α : Type} {fill : α → String → Node → Reading α} {blank a : α}
    {wrap : α → Statement} {kind : StatementKind}
    (hkind : ("kind", some (.text kind.name)) ∈ es)
    (hread : ∀ n, Statement.read kind n = wrap <$> record fill blank n)
    (hplaces : Places fill blank es a) :
  ofNode (.object (given es)) = .ok (wrap a)
  := by
  have hgives : (Statement.read kind (Node.object (given es)).settledRecord).Gives (wrap a) := by
    rw [settledRecord_given hnames hplaces.allSuit, hread]
    refine Gives.map ?_ wrap
    apply (hplaces.fills .settled).gives
    intro name hname
    obtain ⟨e', he', rfl⟩ := List.mem_map.mp hname
    obtain ⟨e, he, rfl⟩ := List.mem_map.mp he'
    exact hnames.2 e.1 (List.mem_map_of_mem he)
  rw [ofNode, kindName_given hnames hkind]
  change (if kind.name = "" then _ else _) = _
  rw [if_neg kind.name_ne_empty, kind.lower_name, kind.ofName?_name]
  dsimp only
  rw [gives_iff_result.mp hgives]
  rfl

end

/-- A statement is read back from its document. -/
structure IsRecovered (s : Statement) (n : Node) : Prop where
  written : s.WrittenAs n
  document : n.IsDocument
  read : ofNode n = .ok s.starred
  starred : ∃ m, s.starred.WrittenAs m ∧ m.depth = n.depth

theorem mem_sorted_withKind {s : Statement} {es : List (String × Option Node)}
    (hnodup : ((s.withKind es).map Prod.fst).Nodup) :
  ("kind", some (.text s.kind.name)) ∈ sortMembers (s.withKind es)
  := by
  have hlookup : ∃ n, lookup? "kind" (given (sortMembers (s.withKind es))) = some n := by
    rw [← sortMembers_given hnodup, lookup?_sortMembers, withKind, lookup?_given_cons, if_pos rfl]
    cases lookup? "kind" (given es) with
    | none => exact ⟨_, rfl⟩
    | some n => exact ⟨n, rfl⟩
  obtain ⟨n, hn⟩ := hlookup
  have hmem := mem_given.mp (mem_of_lookup? hn)
  have hhead : ("kind", some (.text s.kind.name)) ∈ s.withKind es := List.mem_cons_self
  rwa [← List.inj_on_of_nodup_map hnodup (mem_of_mem_sortMembers hmem) hhead rfl]

/-- A statement is read back if its members, sorted by name, fill the slots of its kind. -/
theorem isRecovered_of {α : Type} {s : Statement} {es fs : List (String × Option Node)}
    {fill : α → String → Node → Reading α} {blank a : α} {wrap : α → Statement}
    (names : List String) (order : List Nat) (hmembers : s.HasMembers es)
    (hstarredMembers : s.starred.HasMembers fs)
    (hread : ∀ n, Statement.read s.kind n = wrap <$> record fill blank n)
    (hstarred : s.starred = wrap a) (hes : es.map Prod.fst = names)
    (hnames : AreMemberNames ("kind" :: names))
    (horder : sortMembers ("kind" :: names).zipIdx
      = order.map fun i => (("kind" :: names).getD i "", i))
    (hdepth : (fs.map fun e => (e.1, memberDepth e.2)) = es.map fun e => (e.1, memberDepth e.2))
    (hplaces : Places fill blank
      (order.map fun i => (("kind" :: names).getD i "", (s.withKind es)[i]?.bind Prod.snd)) a) :
  ∃ n, s.IsRecovered n
  := by
  have hkind {s : Statement} {es : List (String × Option Node)} (hes : es.map Prod.fst = names) :
      (s.withKind es).map Prod.fst = "kind" :: names := by
    rw [withKind, List.map_cons, hes]
  rw [← sortMembers_eq_map_order (hkind hes) horder] at hplaces
  have hfs : fs.map Prod.fst = names := by
    have hfirst := congrArg (List.map Prod.fst) hdepth
    simp only [List.map_map, Function.comp_def] at hfirst
    exact hfirst.trans hes
  have hnodup {s : Statement} {es : List (String × Option Node)} (hes : es.map Prod.fst = names) :
      ((s.withKind es).map Prod.fst).Nodup := by
    rw [hkind hes]
    exact hnames.1
  have hsortedNames : AreMemberNames ((sortMembers (s.withKind es)).map Prod.fst) := by
    refine ⟨nodup_of_ascending (ascending_sortMembers _), fun name hname => ?_⟩
    obtain ⟨e, he, rfl⟩ := List.mem_map.mp hname
    have hname := List.mem_map_of_mem (f := Prod.fst) (mem_of_mem_sortMembers he)
    rw [hkind hes] at hname
    exact hnames.2 e.1 hname
  refine ⟨_, hmembers.written (hnodup hes), isDocument_of_allSuit hplaces.allSuit, ?_, ?_⟩
  · rw [hstarred]
    exact ofNode_given hsortedNames (mem_sorted_withKind (hnodup hes)) hread hplaces
  · refine ⟨_, hstarredMembers.written (hnodup hfs), ?_⟩
    apply depth_sortMembers_congr
    rw [withKind, withKind, List.map_cons, List.map_cons, hdepth, kind_starred]

end Statement

end CqlGateway

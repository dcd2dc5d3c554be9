import CqlGateway.Proofs.Cql.Parts
import CqlGateway.Proofs.Statement.Accepted
import CqlGateway.Proofs.Statement.Rejection

/-!
# What rendering comes to

A statement belongs to the one family that claims it, and its rendering is a text with warnings
that are told once, or a rejection. The failures that rendering keeps for faults of its own, no
family for a statement and no text from a family, do not occur.

Rendering asks for the kinds of the cells of a row without asking whether the cells are there. In
a statement that was read from a document they always are, however the document spells its rows.
-/

namespace CqlGateway

/-! ### Families -/

/-- A statement is claimed by its family and by no other. -/
theorem Family.filter_claims (s : Statement) :
  Family.all.filter (·.claims s) = [s.family]
  := by
  cases s with
  | describe s =>
    cases hlists : s.listsKeyspaces <;> simp [all, claims, Statement.family, hlists]
  | _ => rfl

theorem Statement.exists_draft (options : RenderingOptions) (s : Statement) :
  ∃ d, s.family.draft? options s = some d
  := by
  cases s with
  | describe s =>
    cases hlists : s.listsKeyspaces <;> simp [Family.draft?, family, hlists]
  | _ => exact ⟨_, rfl⟩

/-! ### Texts and warnings -/

theorem mem_of_mem_distinctTexts {text : String} {texts : List String}
    (h : text ∈ distinctTexts texts) :
  text ∈ texts
  := by
  induction texts with
  | nil => apply h
  | cons s ss ih =>
    rw [distinctTexts, List.mem_cons] at h
    rcases h with rfl | h
    · apply List.mem_cons_self
    · exact List.mem_cons_of_mem _ (ih (List.mem_filter.mp h).1)

theorem nodup_distinctTexts (texts : List String) :
  (distinctTexts texts).Nodup
  := by
  induction texts with
  | nil => apply List.nodup_nil
  | cons s ss ih =>
    apply List.nodup_cons.mpr
    exact ⟨by simp, ih.filter _⟩

theorem sequenceCql_ne_empty {parts : List String} (hparts : ∀ p ∈ parts, p ≠ "") :
  sequenceCql parts ≠ ""
  := by
  match parts with
  | [part] => exact hparts part List.mem_cons_self
  | [] => decide
  | _ :: _ :: _ => simp [sequenceCql, String.append_eq_empty_iff]

theorem Statement.textOf_ne_empty (s : Statement) {parts : List String}
    (hparts : ∀ p ∈ parts, p ≠ "") :
  s.textOf parts ≠ ""
  := by
  cases s with
  | insert s =>
    match parts with
    | [part] => exact hparts part List.mem_cons_self
    | [] => simp [textOf, Insert.textOf, Insert.batchCql, String.append_eq_empty_iff]
    | _ :: _ :: _ => simp [textOf, Insert.textOf, Insert.batchCql, String.append_eq_empty_iff]
  | _ => exact sequenceCql_ne_empty hparts

/-- What the draft of a statement yields is not empty: it begins with a verb. -/
theorem Statement.ne_empty_of_yields {options : RenderingOptions} {s : Statement}
    {d : Draft String} {text : String}
    (hd : s.normalize.family.draft? options s.normalize = some d) (h : d.Yields text) :
  text ≠ ""
  := by
  obtain ⟨parts, -, -, hclauses, rfl⟩ :=
    @exists_parts_of_yields (fun _ => True) options text d s (fun _ _ => trivial) hd h
  apply textOf_ne_empty
  intro part hpart
  obtain ⟨rest, rfl⟩ := (hclauses part hpart).opens
  cases s.operation <;> simp [Operation.verb, String.append_eq_empty_iff]

/-! ### Outcomes -/

/-- A statement is rendered as its draft says: the draft is turned down, or it yields the text of
the rendering and the warnings, each of which is told once. -/
theorem Statement.render_of_draft {options : RenderingOptions} {s : Statement} {d : Draft String}
    (hd : s.normalize.family.draft? options s.normalize = some d) :
  (∃ reason, d = .error reason ∧ s.render options = .error reason.failure)
    ∨ ∃ text warnings, d = .ok (text, warnings) ∧ text ≠ ""
      ∧ s.render options = .ok ⟨text, distinctTexts (warnings.map Warning.text)⟩
  := by
  rcases d with reason | ⟨text, warnings⟩
  · refine .inl ⟨reason, rfl, ?_⟩
    simp [render, renderNormalized, Family.render, hd, Draft.rendering]
  · have hne : text ≠ "" := ne_empty_of_yields hd ⟨warnings, rfl⟩
    refine .inr ⟨text, warnings, rfl, hne, ?_⟩
    simp [render, renderNormalized, Family.render, hd, Draft.rendering, hne]

/-- A statement has a rendering with a text and with warnings that are told once, or it is turned
down. -/
theorem Statement.render_cases (options : RenderingOptions) (s : Statement) :
  (∃ r, s.render options = .ok r ∧ r.text ≠ "" ∧ r.warnings.Nodup)
    ∨ ∃ reason : Rejection, s.render options = .error reason.failure
  := by
  obtain ⟨d, hd⟩ := exists_draft options s.normalize
  rcases render_of_draft hd with ⟨reason, -, hrender⟩ | ⟨text, warnings, -, hne, hrender⟩
  · exact .inr ⟨reason, hrender⟩
  · exact .inl ⟨_, hrender, hne, nodup_distinctTexts _⟩

/-! ### Cells that are there -/

/-- A node stands somewhere in another one. -/
inductive Node.IsWithin (n : Node) : Node → Prop where
  | self : IsWithin n n
  | item {m : Node} {items : List Node} : m ∈ items → IsWithin n m → IsWithin n (.list items)
  | member {m : String × Node} {members : List (String × Node)} :
      m ∈ members → IsWithin n m.2 → IsWithin n (.object members)

theorem Node.IsWithin.isPlain {n m : Node} (h : n.IsWithin m) (hm : m.IsPlain) :
  n.IsPlain
  := by
  induction h with
  | self => exact hm
  | item hmem _ ih =>
    cases hm with
    | list hitems => exact ih (hitems _ hmem)
  | member hmem _ ih =>
    cases hm with
    | object _ hmembers => exact ih (hmembers _ hmem)

theorem Expr.IsTidy.isPresent {e : Expr} (h : e.IsTidy) :
  e.isPresent = true
  := by
  cases h <;> rfl

theorem Expr.IsTidy.isPresent_items {e : Expr} (h : e.IsTidy) :
  ∀ item ∈ e.items, item.isPresent = true
  := by
  cases h with
  | list hitems =>
    intro item hitem
    exact (hitems item hitem).isPresent
  | _ => exact List.forall_mem_nil _

/-- Wherever the rows of an insertion are looked for, there are raw nodes, and what such a node
is read as is there with all its items. -/
def Insert.HasCells (s : Insert) : Prop :=
  ∀ n, n.IsWithin s.values → (∀ e, n ≠ .expr e)
    ∧ ∀ e, Expr.ofNode n = .ok e → e.isPresent = true ∧ ∀ cell ∈ e.items, cell.isPresent = true

theorem Insert.IsTidy.hasCells {s : Insert} (h : s.IsTidy) :
  s.HasCells
  := by
  intro n hn
  have hplain := hn.isPlain h.values
  constructor
  · rintro e rfl
    cases hplain
  · intro e he
    have hdocument := (Node.isDocument_of_isPlain hplain).withCanonicalQueries
    have htidy : e.IsTidy := (hdocument.accumulate _ false).readsTidy.expr e he
    exact ⟨htidy.isPresent, htidy.isPresent_items⟩

/-- A statement that was read is claimed by its family alone and has a rendering with a text and
distinct warnings, or is turned down under one of four categories; no cell is missing that is asked
for its kind. -/
theorem Statement.render_of_ofText {text : String} {s : Statement}
    (h : Statement.ofText text = .ok s) (options : RenderingOptions) :
  ((∃ r, s.render options = .ok r ∧ r.text ≠ "" ∧ r.warnings.Nodup)
      ∨ ∃ f, s.render options = .error f ∧ f.category ∈ Category.rejecting)
    ∧ Family.all.filter (·.claims s.normalize) = [s.normalize.family]
    ∧ ∀ i, s = .insert i → i.HasCells
  := by
  refine ⟨?_, Family.filter_claims _, ?_⟩
  · apply (s.render_cases options).imp_right
    rintro ⟨reason, hreason⟩
    refine ⟨reason.failure, hreason, ?_⟩
    rw [reason.category_failure]
    apply reason.category_mem
  · rintro i rfl
    exact (Statement.isTidy_of_ofText h).hasCells

/-- An insertion of two rows whose cells are not all given. -/
def sparseRows : List (String × Json) :=
  [("kind", .text "insert"), ("table", .object [("name", .text "t")]),
   ("columns", .array [.text "id", .text "note"]),
   ("values", .array [.array [.text "a", .null], .array [.text "b", .array []]])]

theorem Statement.render_sparseRows :
  ∃ i, Statement.ofText (Json.object sparseRows).write = .ok (.insert i)
    ∧ ((∃ r, (Statement.insert i).render {} = .ok r ∧ r.text ≠ "" ∧ r.warnings.Nodup)
        ∨ ∃ f, (Statement.insert i).render {} = .error f ∧ f.category ∈ Category.rejecting)
    ∧ Family.all.filter (·.claims (.insert i)) = [(Statement.insert i).family]
    ∧ i.HasCells
  := by
  have hspelled : (Json.object sparseRows).IsSpelled := by
    simp [sparseRows, Json.isSpelled_object_iff, Json.isSpelled_array_iff, Json.IsSpelled.text,
      Json.IsSpelled.null]
  have hdocument := Statement.documentOf_write hspelled (by decide)
  obtain ⟨i, hi⟩ : ∃ i, Statement.ofNode (.ofJson (.object sparseRows)) = .ok (.insert i) :=
    ⟨_, rfl⟩
  have hread : Statement.ofText (Json.object sparseRows).write = .ok (.insert i) := by
    rw [Statement.ofText, hdocument]
    exact hi
  obtain ⟨houtcome, hclaims, hcells⟩ := Statement.render_of_ofText hread {}
  exact ⟨i, hread, houtcome, hclaims, hcells i rfl⟩

end CqlGateway

import CqlGateway.Cql.Command
import CqlGateway.Proofs.Json.RoundTrip
import CqlGateway.Proofs.Statement.Members
import CqlGateway.Proofs.Text.Blank
import CqlGateway.Statement.Reader

/-!
# Raw nodes that are documents

A raw node that a text gives holds nothing but JSON values. Such a node has a document, and putting
its members into canonical order, settling it or accumulating it gives such a node again. A node in
canonical order is left as it is by all of them.
-/

namespace CqlGateway

namespace Node

variable {n : Node}

/-- A raw node that a text gives. -/
inductive IsDocument : Node → Prop
  | null : IsDocument .null
  | bool (b : Bool) : IsDocument (.bool b)
  | text (s : String) : IsDocument (.text s)
  | number {literal : String} (h : Json.isNumber literal.toList = true) :
      IsDocument (.number literal)
  | list {items : List Node} (h : ∀ n ∈ items, IsDocument n) : IsDocument (.list items)
  | object {members : List (String × Node)} (h : ∀ m ∈ members, IsDocument m.2) :
      IsDocument (.object members)

/-- A raw node that a text gives, with its members in ascending order. -/
inductive IsPlain : Node → Prop
  | null : IsPlain .null
  | bool (b : Bool) : IsPlain (.bool b)
  | text (s : String) : IsPlain (.text s)
  | number {literal : String} (h : Json.isNumber literal.toList = true) : IsPlain (.number literal)
  | list {items : List Node} (h : ∀ n ∈ items, IsPlain n) : IsPlain (.list items)
  | object {members : List (String × Node)} (hascending : AscendingMembers members)
      (h : ∀ m ∈ members, IsPlain m.2) : IsPlain (.object members)

/-! ### Parts of documents -/

theorem ofItems_eq_map (items : List Json) :
  ofItems items = items.map ofJson
  := by
  induction items with
  | nil => rfl
  | cons v vs ih => rw [ofItems, ih, List.map_cons]

theorem ofMembers_eq_map (members : List (String × Json)) :
  ofMembers members = members.map fun m => (m.1, ofJson m.2)
  := by
  induction members with
  | nil => rfl
  | cons m ms ih => rw [ofMembers, ih, List.map_cons]

theorem canonicalItems_eq_map (items : List Node) :
  canonicalItems items = items.map canonical
  := by
  induction items with
  | nil => rfl
  | cons n ns ih => rw [canonicalItems, ih, List.map_cons]

theorem canonicalMembers_eq_map (members : List (String × Node)) :
  canonicalMembers members = members.map fun m => (m.1, m.2.canonical)
  := by
  induction members with
  | nil => rfl
  | cons m ms ih => rw [canonicalMembers, ih, List.map_cons]

theorem itemsWithCanonicalQueries_eq_map (items : List Node) :
  itemsWithCanonicalQueries items = items.map withCanonicalQueries
  := by
  induction items with
  | nil => rfl
  | cons n ns ih => rw [itemsWithCanonicalQueries, ih, List.map_cons]

theorem membersWithCanonicalQueries_eq_map (query : Bool) (members : List (String × Node)) :
  membersWithCanonicalQueries query members
    = members.map fun m =>
        (m.1, if query && m.1 = "select" then m.2.plain else m.2.withCanonicalQueries)
  := by
  induction members with
  | nil => rfl
  | cons m ms ih => rw [membersWithCanonicalQueries, ih, List.map_cons]

/-! ### The document of a node -/

theorem isDocument_ofJson {j : Json} (h : j.IsSpelled) :
  (ofJson j).IsDocument
  := by
  induction h with
  | null => exact .null
  | bool b => exact .bool b
  | number h => exact .number h
  | text s => exact .text s
  | array h ih =>
    rw [ofJson, ofItems_eq_map]
    apply IsDocument.list
    simpa using ih
  | object h ih =>
    rw [ofJson, ofMembers_eq_map]
    apply IsDocument.object
    rwa [List.forall_mem_map]

theorem isSpelled_of_isDocument {j : Json} (h : (ofJson j).IsDocument) :
  j.IsSpelled
  := by
  generalize hn : ofJson j = n at h
  induction h generalizing j with
  | null | bool b | text s =>
    cases j <;> cases hn
    constructor
  | number h =>
    cases j <;> cases hn
    exact .number h
  | list h ih =>
    cases j <;> cases hn
    rw [ofItems_eq_map] at ih
    apply Json.IsSpelled.array
    intro v hv
    apply ih (ofJson v) (List.mem_map_of_mem hv) rfl
  | object h ih =>
    cases j <;> cases hn
    rw [ofMembers_eq_map] at ih
    apply Json.IsSpelled.object
    intro m hm
    apply ih (m.1, ofJson m.2) (List.mem_map_of_mem (f := fun m => (m.1, ofJson m.2)) hm) rfl

theorem isDocument_of_isPlain (h : n.IsPlain) :
  n.IsDocument
  := by
  induction h with
  | null | bool b | text s => constructor
  | number h => exact .number h
  | list h ih => exact .list ih
  | object hascending h ih => exact .object ih

theorem isPlain_canonical (h : n.IsDocument) :
  n.canonical.IsPlain
  := by
  induction h with
  | null | bool b | text s => constructor
  | number h => exact .number h
  | list h ih =>
    rw [canonical, canonicalItems_eq_map]
    apply IsPlain.list
    simpa using ih
  | @object members h ih =>
    rw [canonical, canonicalMembers_eq_map]
    apply IsPlain.object (ascending_sortMembers _)
    intro m hm
    obtain ⟨m, hmem, rfl⟩ := List.mem_map.mp (mem_of_mem_sortMembers hm)
    apply ih m hmem

theorem IsPlain.canonical_eq (h : n.IsPlain) :
  n.canonical = n
  := by
  induction h with
  | null | bool b | text s | number h => rfl
  | @list items h ih => rw [canonical, canonicalItems_eq_map, List.map_congr_left ih, List.map_id']
  | @object members hascending h ih =>
    have hmembers : canonicalMembers members = members := by
      rw [canonicalMembers_eq_map]
      conv_rhs => rw [← List.map_id' members]
      apply List.map_congr_left
      intro m hm
      rw [ih m hm]
    rw [canonical, hmembers, sortMembers_of_ascending hascending]

theorem IsDocument.itemsToJson? {items : List Node}
    (h : ∀ n ∈ items, ∃ j, n.toJson? = some j ∧ ofJson j = n.canonical) :
  ∃ js, Node.itemsToJson? items = some js ∧ ofItems js = canonicalItems items
  := by
  induction items with
  | nil => exact ⟨[], rfl, rfl⟩
  | cons n ns ih =>
    rw [List.forall_mem_cons] at h
    obtain ⟨⟨j, hj, hn⟩, hrest⟩ := h
    obtain ⟨js, hjs, hns⟩ := ih hrest
    refine ⟨j :: js, ?_, ?_⟩
    · simp [Node.itemsToJson?, hj, hjs]
    · rw [ofItems, canonicalItems, hn, hns]

theorem IsDocument.membersToJson? {members : List (String × Node)}
    (h : ∀ m ∈ members, ∃ j, m.2.toJson? = some j ∧ ofJson j = m.2.canonical) :
  ∃ js, Node.membersToJson? members = some js ∧ ofMembers js = canonicalMembers members
  := by
  induction members with
  | nil => exact ⟨[], rfl, rfl⟩
  | cons m ms ih =>
    rw [List.forall_mem_cons] at h
    obtain ⟨⟨j, hj, hn⟩, hrest⟩ := h
    obtain ⟨js, hjs, hns⟩ := ih hrest
    refine ⟨(m.1, j) :: js, ?_, ?_⟩
    · simp [Node.membersToJson?, hj, hjs]
    · rw [ofMembers, canonicalMembers, hn, hns]

theorem IsDocument.toJson? (h : n.IsDocument) :
  ∃ j, n.toJson? = some j ∧ ofJson j = n.canonical
  := by
  induction h with
  | null | bool b | text s => exact ⟨_, rfl, rfl⟩
  | @number literal h =>
    have hne : literal ≠ "" := by
      rintro rfl
      revert h
      decide
    exact ⟨.number literal, by simp [Node.toJson?, hne, h], rfl⟩
  | list h ih =>
    obtain ⟨js, hjs, hitems⟩ := IsDocument.itemsToJson? ih
    exact ⟨.array js, by simp [Node.toJson?, hjs], by rw [ofJson, canonical, hitems]⟩
  | object h ih =>
    obtain ⟨js, hjs, hmembers⟩ := IsDocument.membersToJson? ih
    refine ⟨.object (sortMembers js), by simp [Node.toJson?, hjs], ?_⟩
    rw [ofJson, canonical, ← hmembers, ofMembers_eq_map, ofMembers_eq_map, sortMembers_map]

theorem IsDocument.plain_eq (h : n.IsDocument) :
  n.plain = n.canonical
  := by
  obtain ⟨j, hj, hn⟩ := h.toJson?
  simp [plain, hj, hn]

/-! ### Settled documents -/

/-- A plain node is settled as far as queries of subqueries go. -/
theorem IsPlain.withCanonicalQueries_eq (h : n.IsPlain) :
  n.withCanonicalQueries = n
  := by
  induction h with
  | null | bool b | text s | number h => rfl
  | @list items h ih =>
    rw [withCanonicalQueries, itemsWithCanonicalQueries_eq_map, List.map_congr_left ih,
      List.map_id']
  | @object members hascending h ih =>
    rw [withCanonicalQueries, membersWithCanonicalQueries_eq_map]
    conv_rhs => rw [← List.map_id' members]
    congr 1
    apply List.map_congr_left
    intro m hm
    have hplain : m.2.plain = m.2 := by
      rw [(isDocument_of_isPlain (h m hm)).plain_eq, (h m hm).canonical_eq]
    rw [hplain, ih m hm, ite_self]

theorem IsDocument.plain (h : n.IsDocument) :
  n.plain.IsDocument
  := by
  rw [h.plain_eq]
  exact isDocument_of_isPlain (isPlain_canonical h)

/-! ### Accumulated documents -/

/-- A property of nodes in layers: a list or an object has it in a layer if its parts have it in the
layer below. -/
structure IsLayered {ι : Type} (below : ι → ι → Prop) (P : ι → Node → Prop) : Prop where
  unique : ∀ {d e e'}, below d e → below d e' → e = e'
  null : ∀ d, P d .null
  list : ∀ {d ns}, P d (.list ns) ↔ ∃ e, below d e ∧ ∀ n ∈ ns, P e n
  object : ∀ {d ms}, P d (.object ms) ↔ ∃ e, below d e ∧ ∀ m ∈ ms, P e m.2

namespace IsLayered

variable {ι : Type} {below : ι → ι → Prop} {P : ι → Node → Prop} (h : IsLayered below P) {d : ι}
  {old new : Node}

include h

theorem append {old new : List (String × Node)} (hold : P d (.object old))
    (hnew : P d (.object new)) :
  P d (.object (old ++ new))
  := by
  obtain ⟨e, he, holds⟩ := h.object.mp hold
  obtain ⟨e', he', hnews⟩ := h.object.mp hnew
  cases h.unique he he'
  exact h.object.mpr ⟨e, he, List.forall_mem_append.mpr ⟨holds, hnews⟩⟩

theorem merged (hold : P d old) (hnew : P d new) :
  P d (Node.merged old new)
  := by
  unfold Node.merged
  split
  · exact hold
  · exact h.append hold hnew
  · exact hnew

theorem mergedItems {old new : List Node} (hold : ∀ n ∈ old, P d n) (hnew : ∀ n ∈ new, P d n) :
  ∀ n ∈ Node.mergedItems old new, P d n
  := by
  fun_induction Node.mergedItems with
  | case1 old => exact hold
  | case2 new => exact hnew
  | case3 a old b new ih =>
    rw [List.forall_mem_cons] at hold hnew ⊢
    exact ⟨h.merged hold.1 hnew.1, ih hold.2 hnew.2⟩

theorem kept (hold : P d old) (hnew : P d new) :
  P d (Node.kept old new)
  := by
  unfold Node.kept
  split
  · obtain ⟨e, he, holds⟩ := h.list.mp hold
    obtain ⟨e', he', hnews⟩ := h.list.mp hnew
    cases h.unique he he'
    exact h.list.mpr ⟨e, he, h.mergedItems holds hnews⟩
  · exact h.append hold hnew
  · exact hnew

theorem holding {before : List Node} {n : Node} (hbefore : ∀ m ∈ before, P d m) (hn : P d n) :
  P d (Node.holding before n)
  := by
  have hfold (start : Node) (hstart : P d start) : P d (before.foldl Node.kept start) := by
    induction before generalizing start with
    | nil => exact hstart
    | cons m before ih =>
      rw [List.forall_mem_cons] at hbefore
      apply ih hbefore.2 _ (h.kept hstart hbefore.1)
  have hkept := h.kept (hfold .null (h.null d)) hn
  unfold Node.holding
  split
  next all ns heq =>
    rw [heq] at hkept
    obtain ⟨e, he, hall⟩ := h.list.mp hkept
    exact h.list.mpr ⟨e, he, fun m hm => hall m (List.mem_of_mem_take hm)⟩
  next => exact hkept

theorem accumulated {earlier members : List (String × Node)} (hearlier : ∀ m ∈ earlier, P d m.2)
    (hmembers : ∀ m ∈ members, P d m.2) :
  ∀ m ∈ Node.accumulated earlier members, P d m.2
  := by
  induction members generalizing earlier with
  | nil => exact List.forall_mem_nil _
  | cons m ms ih =>
    rw [List.forall_mem_cons] at hmembers
    obtain ⟨name, n⟩ := m
    rw [Node.accumulated, List.forall_mem_cons]
    refine ⟨?_, ih ?_ hmembers.2⟩
    · dsimp only
      split
      · apply h.holding _ hmembers.1
        intro m hm
        obtain ⟨m, hmem, rfl⟩ := List.mem_map.mp hm
        exact hearlier m (List.mem_of_mem_filter hmem)
      · exact hmembers.1
    · rw [List.forall_mem_append, List.forall_mem_singleton]
      exact ⟨hearlier, hmembers.1⟩

end IsLayered

section

variable {P : Node → Prop} (h : IsLayered (fun _ _ : Unit => True) fun _ => P)

include h

theorem IsLayered.withCanonicalQueries (hplain : ∀ n, P n → P n.plain) {n : Node} (hn : P n) :
  P n.withCanonicalQueries
  := by
  cases n with
  | list items =>
    obtain ⟨_, _, hitems⟩ := (h.list (d := ())).mp hn
    rw [Node.withCanonicalQueries, itemsWithCanonicalQueries_eq_map]
    refine (h.list (d := ())).mpr ⟨(), trivial, ?_⟩
    intro m hm
    obtain ⟨m, hmem, rfl⟩ := List.mem_map.mp hm
    exact IsLayered.withCanonicalQueries hplain (hitems m hmem)
  | object members =>
    obtain ⟨_, _, hmembers⟩ := (h.object (d := ())).mp hn
    rw [Node.withCanonicalQueries, membersWithCanonicalQueries_eq_map]
    refine (h.object (d := ())).mpr ⟨(), trivial, ?_⟩
    intro m hm
    obtain ⟨⟨name, m⟩, hmem, rfl⟩ := List.mem_map.mp hm
    have hsize : sizeOf m < sizeOf (Node.object members) := by
      have hlt := List.sizeOf_lt_of_mem hmem
      rw [Prod.mk.sizeOf_spec] at hlt
      rw [Node.object.sizeOf_spec]
      omega
    dsimp only
    split
    · exact hplain m (hmembers _ hmem)
    · exact IsLayered.withCanonicalQueries hplain (hmembers _ hmem)
  | _ => exact hn
termination_by sizeOf n

theorem IsLayered.accumulate {n : Node} (hn : P n) (depth : Nat) (record : Bool) :
  P (Node.accumulate depth record n)
  := by
  induction depth generalizing record n with
  | zero => exact hn
  | succ depth ih =>
    cases n with
    | list items =>
      obtain ⟨_, _, hitems⟩ := (h.list (d := ())).mp hn
      refine (h.list (d := ())).mpr ⟨(), trivial, ?_⟩
      intro n hn
      obtain ⟨n, hmem, rfl⟩ := List.mem_map.mp hn
      apply ih (hitems n hmem)
    | object members =>
      obtain ⟨_, _, hmembers⟩ := (h.object (d := ())).mp hn
      cases record with
      | true =>
        refine (h.object (d := ())).mpr ⟨(), trivial, ?_⟩
        intro m hm
        obtain ⟨m, hmem, rfl⟩ := List.mem_map.mp hm
        have hm := h.accumulated (d := ()) (List.forall_mem_nil _) hmembers m hmem
        dsimp only
        split
        · exact ih hm true
        · split
          · exact ih hm false
          · exact hm
      | false =>
        refine (h.object (d := ())).mpr ⟨(), trivial, ?_⟩
        intro m hm
        obtain ⟨m, hmem, rfl⟩ := List.mem_map.mp hm
        apply ih (hmembers m hmem)
    | _ => exact hn

end

/-- Whether a node is a document does not depend on how deep it is. -/
theorem isLayered_document :
  IsLayered (fun _ _ : Unit => True) fun _ n => n.IsDocument
  where
  unique _ _ := rfl
  null _ := .null
  list := by
    intro _ ns
    constructor
    · intro h
      cases h with
      | list h => exact ⟨(), trivial, h⟩
    · exact fun ⟨_, _, h⟩ => .list h
  object := by
    intro _ ms
    constructor
    · intro h
      cases h with
      | object h => exact ⟨(), trivial, h⟩
    · exact fun ⟨_, _, h⟩ => .object h

theorem IsDocument.withCanonicalQueries (h : n.IsDocument) :
  n.withCanonicalQueries.IsDocument
  := isLayered_document.withCanonicalQueries (fun _ h => h.plain) h

theorem IsDocument.accumulate (h : n.IsDocument) (depth : Nat) (record : Bool) :
  (Node.accumulate depth record n).IsDocument
  := isLayered_document.accumulate h depth record

theorem IsDocument.settledRecord (h : n.IsDocument) :
  n.settledRecord.IsDocument
  := by
  cases h with
  | null | bool b | text s => constructor
  | number h => exact .number h
  | list h => exact .list h
  | object h =>
    apply IsDocument.accumulate
    rw [membersWithCanonicalQueries_eq_map]
    apply IsDocument.object
    intro m hm
    obtain ⟨m, hmem, rfl⟩ := List.mem_map.mp hm
    simpa using (h m hmem).withCanonicalQueries

end Node

/-! ### Texts of documents -/

theorem Json.isSpelled_array_iff {items : List Json} :
  (Json.array items).IsSpelled ↔ ∀ v ∈ items, v.IsSpelled
  := by
  constructor
  · intro h
    cases h with
    | array h => exact h
  · exact .array

theorem Json.isSpelled_object_iff {members : List (String × Json)} :
  (Json.object members).IsSpelled ↔ ∀ m ∈ members, m.2.IsSpelled
  := by
  constructor
  · intro h
    cases h with
    | object h => exact h
  · exact .object

theorem Json.toList_write_of_object (members : List (String × Json)) :
  ∃ cs, (Json.write (.object members)).toList = '\x7b' :: (cs ++ ['\x7d'])
  := by
  refine ⟨(String.intercalate "," (Json.writeMembers members)).toList, ?_⟩
  rw [Json.write, String.toList_append, String.toList_append]
  rfl

namespace Statement

theorem documentOf_write {members : List (String × Json)} (h : (Json.object members).IsSpelled)
    (hdepth : (Json.object members).depth ≤ Json.depthLimit) :
  documentOf (Json.object members).write = .ok (.object members)
  := by
  obtain ⟨cs, hcs⟩ := Json.toList_write_of_object members
  have htrim : Text.trimChars (Json.object members).write.toList
      = (Json.object members).write.toList := by
    apply Text.trimChars_of_solid
    · rw [hcs]
      rfl
    · rw [hcs, ← List.cons_append]
      apply Text.endsSolid_append rfl
  have hread : Json.read (Json.object members).write = .ok (.object members) := by
    rw [Json.read, h.read?_write hdepth]
  simp [documentOf, htrim, hread]

end Statement

theorem Command.describe?_write (members : List (String × Json)) :
  Command.describe? (Json.object members).write = none
  := by
  obtain ⟨cs, hcs⟩ := Json.toList_write_of_object members
  rw [Command.describe?, hcs]
  rfl

end CqlGateway

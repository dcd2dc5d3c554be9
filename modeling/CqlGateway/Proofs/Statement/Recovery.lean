import CqlGateway.Proofs.Statement.Transcript

/-!
# Records read back from their documents

A place of a record holds what its member says, in each form of the document. A record whose places
all hold their values is read back from its document, whether its members are in the order in which
they are written or sorted.
-/

namespace CqlGateway

open Node Reading

namespace Node

variable {α β : Type} {as? : Option (List α)} {R : α → Node → Prop} {n : Node} {name : String}

/-- A node that a place of a record may hold. -/
structure Suits (name : String) (n : Node) : Prop where
  document : n.IsDocument
  steady : n.IsSteadyIn name

/-- Members that suit their places. -/
def AllSuit (es : List (String × Option Node)) : Prop :=
  ∀ e ∈ es, ∀ n, e.2 = some n → n.Suits e.1

theorem AllSuit.nil :
  AllSuit []
  := List.forall_mem_nil _

theorem AllSuit.cons {o : Option Node} {es : List (String × Option Node)}
    (h : ∀ n, o = some n → n.Suits name) (hs : AllSuit es) :
  AllSuit ((name, o) :: es)
  := List.forall_mem_cons.mpr ⟨h, hs⟩

/-- A value is read back from its document, in each form of the document. The flag says whether the
objects of the document are records. -/
structure Recovers (record : Bool) (read : Node → Reading α) (a : α) (n : Node) : Prop where
  document : n.IsDocument
  steady : n.IsSteady record
  gives : ∀ f, (read (n.arranged f)).Gives a

/-- A place of a record is filled with a value from its member, which may be left out. -/
structure Holds (name : String) (read : Node → Reading β) (blank v : β) (o : Option Node) : Prop where
  suits : ∀ n, o = some n → n.Suits name
  offers : ∀ f, Offers read blank (o.map (arranged f)) v

/-! ### Places -/

theorem suits_text (name s : String) :
  (Node.text s).Suits name
  := ⟨.text s, fun record _ => .text record s⟩

theorem holds_presentText (name old s : String) :
  Holds name (Reading.text old) "" s (presentText s)
  where
  suits n hn := ⟨.presentText hn, fun _ _ => .presentText hn⟩
  offers f := by
    rw [map_arranged_presentText]
    apply offers_text

theorem holds_text (name old blank s : String) :
  Holds name (Reading.text old) blank s (some (.text s))
  where
  suits n hn := by
    cases hn
    apply suits_text
  offers f := by
    rw [Option.map_some, arranged_text]
    exact gives_pure s

theorem holds_presentFlag (name : String) (old b : Bool) :
  Holds name (Reading.flag old) false b (presentFlag b)
  where
  suits n hn := ⟨.presentFlag hn, fun _ _ => .presentFlag hn⟩
  offers f := by
    rw [map_arranged_presentFlag]
    apply offers_flag

theorem holds_raw (name : String) (hname : ∀ record, accumulates record name = false)
    (h : n.IsPlain) :
  Holds name Reading.raw .null n (presentNode n)
  where
  suits m hm := ⟨(isDocument_of_isPlain h).presentNode hm, isSteadyIn_of_idle m hname⟩
  offers f := by
    rw [h.map_arranged_presentNode]
    exact offers_raw h

theorem holds_rawNode (name : String) (hname : ∀ record, accumulates record name = false)
    (h : n.IsPlain) :
  Holds name Reading.raw .null n (some n)
  where
  suits m hm := by
    cases hm
    exact ⟨isDocument_of_isPlain h, isSteadyIn_of_idle n hname⟩
  offers f := by
    rw [Option.map_some, h.arranged_eq]
    have hgives : (Reading.raw n).Gives n.canonical := gives_pure n.canonical
    rwa [h.canonical_eq] at hgives

theorem Recovers.holds {record : Bool} {read : Node → Reading α} {a : α}
    (h : Recovers record read a n) (hname : accumulates (!record) name = false) (blank : α) :
  Holds name read blank a (some n)
  where
  suits m hm := by
    cases hm
    exact ⟨h.document, h.steady.inPlace hname⟩
  offers f := h.gives f

/-! ### Lists -/

section

variable {record : Bool} {fill : α → Node → Reading α} {blank : α} {as : List α} {ns : List Node}
  (h : List.Forall₂ (Recovers record (fill blank)) as ns)

include h

theorem isDocument_of_recovers :
  ∀ n ∈ ns, n.IsDocument
  := forall_of_forall₂ h fun _ _ hn => hn.document

theorem isSteady_of_recovers :
  ∀ n ∈ ns, n.IsSteady record
  := forall_of_forall₂ h fun _ _ hn => hn.steady

theorem gives_arranged_of_recovers (f : Form) :
  List.Forall₂ (fun n a => (fill blank n).Gives a) (ns.map (arranged f)) as
  := by
  rw [List.forall₂_map_left_iff]
  exact (h.imp fun _ _ hn => hn.gives f).flip

theorem holds_presentList (hname : accumulates (!record) name = false) :
  Holds name (Reading.list fill blank) [] as (presentList ns)
  where
  suits n hn := ⟨.presentList (isDocument_of_recovers h) hn,
    (IsSteady.presentList (isSteady_of_recovers h) hn).inPlace hname⟩
  offers f := by
    rw [map_arranged_presentList]
    exact offers_list (gives_arranged_of_recovers h f)

theorem recovers_items :
  Recovers record (Reading.list fill blank) as (.list ns)
  where
  document := .list (isDocument_of_recovers h)
  steady := .list (isSteady_of_recovers h)
  gives f := by
    rw [arranged_list]
    exact gives_items (gives_arranged_of_recovers h f)

end

/-- The document of a list of which it is kept whether it was given, by the documents of its
items. -/
inductive Lists (R : α → Node → Prop) : Option (List α) → Node → Prop
  | absent : Lists R none .null
  | present {as : List α} {ns : List Node} (h : List.Forall₂ R as ns) : Lists R (some as) (.list ns)

theorem Lists.imp {S : α → Node → Prop} (hRS : ∀ a n, R a n → S a n) (h : Lists R as? n) :
  Lists S as? n
  := by
  cases h with
  | absent => exact .absent
  | present h => exact .present (h.imp hRS)

theorem Lists.map {S : β → Node → Prop} {g : α → β} (hRS : ∀ a n, R a n → S (g a) n)
    (h : Lists R as? n) :
  Lists S (as?.map (List.map g)) n
  := by
  cases h with
  | absent => exact .absent
  | present h => exact .present (List.forall₂_map_left_iff.mpr (h.imp hRS))

theorem Lists.exists_of_forall (h : ∀ a ∈ as?.getD [], ∃ n, R a n) :
  ∃ n, Lists R as? n
  := by
  cases as? with
  | none => exact ⟨.null, .absent⟩
  | some as =>
    obtain ⟨ns, hns⟩ := exists_forall₂ h
    exact ⟨.list ns, .present hns⟩

theorem Lists.exists_starred {S : α → Node → Prop} {starred : α → α}
    (hR : ∀ a n, R a n → ∃ m, S (starred a) m ∧ m.depth = n.depth) (h : Lists R as? n) :
  ∃ m, Lists S (as?.map (List.map starred)) m ∧ m.depth = n.depth
  := by
  cases h with
  | absent => exact ⟨.null, .absent, rfl⟩
  | present h =>
    obtain ⟨ms, hms, hdepth⟩ := exists_starred_of_forall₂ hR h
    refine ⟨.list ms, .present hms, ?_⟩
    rw [depth, depth, itemsDepth_congr hdepth]

theorem Lists.recovers {record : Bool} {fill : α → Node → Reading α} {blank : α}
    (h : Lists (Recovers record (fill blank)) as? n) :
  Recovers record (optionalList fill blank) as? n
  := by
  cases h with
  | absent =>
    refine ⟨.null, .null record, fun f => ?_⟩
    rw [arranged_null]
    exact gives_pure none
  | present h =>
    have hitems := recovers_items h
    refine ⟨hitems.document, hitems.steady, fun f => ?_⟩
    have hgives := hitems.gives f
    rw [arranged_list] at hgives ⊢
    exact hgives.map some

/-! ### Records -/

/-- Names that a document can give to the members of a record: each once, in folded form, and none
of them that of the query of a subquery. -/
def AreRecordNames (names : List String) : Prop :=
  names.Nodup ∧ "select" ∉ names ∧ ∀ name ∈ names, Text.fold name = name

instance (names : List String) :
    Decidable (AreRecordNames names) :=
  inferInstanceAs (Decidable (_ ∧ _ ∧ _))

theorem isDocument_of_allSuit {es : List (String × Option Node)} (h : AllSuit es) :
  (Node.object (given es)).IsDocument
  := isDocument_given fun e he n hn => (h e he n hn).document

/-- Members with their values in a form. -/
def arrangedEntries (f : Form) (es : List (String × Option Node)) : List (String × Option Node) :=
  es.map fun e => (e.1, e.2.map (arranged f))

/-- Places that hold their values fill a record, one after another. A text may stand in a place that
the record does not have. -/
inductive Places (fill : α → String → Node → Reading α) :
    α → List (String × Option Node) → α → Prop
  | nil (a : α) : Places fill a [] a
  | ignore {a b : α} {name s : String} {es : List (String × Option Node)}
      (hfill : ∀ n, fill a name n = pure a) (h : Places fill a es b) :
      Places fill a ((name, some (.text s)) :: es) b
  | cons {β : Type} {a b : α} {name : String} {o : Option Node} {es : List (String × Option Node)}
      {r : Node → Reading β} {put : β → α} {blank v : β}
      (hfill : ∀ n, fill a name n = r n >>= fun v => pure (put v)) (ho : Holds name r blank v o)
      (hblank : put blank = a) (h : Places fill (put v) es b) :
      Places fill a ((name, o) :: es) b

section

variable {fill : α → String → Node → Reading α} {a b : α} {es : List (String × Option Node)}

theorem Places.slot {β : Type} {name : String} {o : Option Node} {r : Node → Reading β}
    {put : β → α} {blank v : β} (hfill : fill a name = fun n => r n >>= fun v => pure (put v))
    (ho : Holds name r blank v o) (hblank : put blank = a) (h : Places fill (put v) es b) :
  Places fill a ((name, o) :: es) b
  := .cons (congrFun hfill) ho hblank h

theorem Places.allSuit (h : Places fill a es b) :
  AllSuit es
  := by
  induction h with
  | nil => exact .nil
  | ignore _ _ ih =>
    apply AllSuit.cons _ ih
    rintro n ⟨⟩
    apply suits_text
  | cons _ ho _ _ ih => exact .cons ho.suits ih

theorem Places.fills (h : Places fill a es b) (f : Form) :
  Fills fill a (arrangedEntries f es) b
  := by
  induction h with
  | nil => exact .nil _
  | ignore hfill _ ih =>
    refine .cons ?_ ih
    rw [hfill]
    exact gives_pure _
  | cons hfill ho hblank _ ih => exact .slot hfill (ho.offers f) hblank ih

/-- A record is read back from its document if its places are filled in the order of the document
and if they are filled in the order of the names. -/
theorem recovers_record (names : List String) (order : List Nat) (hes : es.map Prod.fst = names)
    (hnames : AreRecordNames names)
    (horder : sortMembers names.zipIdx = order.map fun i => (names.getD i "", i))
    (hplaces : Places fill a es b)
    (hplacesSorted : Places fill a
      (order.map fun i => (names.getD i "", es[i]?.bind Prod.snd)) b) :
  Recovers true (Reading.record fill a) b (.object (given es))
  := by
  subst hes
  have hsuits := hplaces.allSuit
  have hdocument := isDocument_of_allSuit hsuits
  refine ⟨hdocument, ?_, ?_⟩
  · apply isSteady_record hdocument hnames.1 hnames.2.1 hnames.2.2
    intro e he n hn
    exact (hsuits e he n hn).steady
  · intro f
    rw [hdocument.arranged_given hnames.1 hnames.2.1 f]
    apply Fills.gives
    · cases f with
      | settled => exact hplaces.fills .settled
      | sorted =>
        rw [Form.order, sortMembers_map, sortMembers_eq_map_order rfl horder]
        exact hplacesSorted.fills .sorted
    · intro name hname
      obtain ⟨e', he', rfl⟩ := List.mem_map.mp hname
      obtain ⟨e, he, rfl⟩ := List.mem_map.mp (Form.mem_of_mem_order he')
      exact hnames.2.2 e.1 (List.mem_map_of_mem he)

end

end Node

end CqlGateway

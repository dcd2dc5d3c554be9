import CqlGateway.Proofs.Cql.Surplus
import CqlGateway.Proofs.Statement.RoundTrip

/-!
# The limits of queries

Every query has a limit in CQL. It is the count that the query gives, in one of the shapes that
parsers have for it, if that is a positive integer, and the default otherwise. Of a pair, which may
have more than two items, the count is the first item if the word between them is `offset`, and the
last item if it is any other word.

Main statement: `Select.render_limit`.
-/

namespace CqlGateway

open Integer64 (InRange Spells)

variable {w : Warning}

/-! ### Integers in nodes -/

namespace Node

/-- A node stands in wrappers, or bare. A wrapper is an object of a number or without a type, and
what it wraps is its value. -/
inductive IsWrappedIn (core : Node) : Node → Prop where
  | bare : IsWrappedIn core core
  | object {members : List (String × Node)} {n : Node}
      (htype : objectType members = "number" ∨ objectType members = "")
      (hvalue : lookup? "value" members = some n) (h : IsWrappedIn core n) :
      IsWrappedIn core (.object members)

/-- A node that is an integer: a number, a text, or an expression of a number. -/
inductive IsNumeral : Node → Int → Prop where
  | number {literal : String} {c : Int} (h : Spells literal.toList c) (hc : InRange c) :
      IsNumeral (.number literal) c
  | text {s : String} {c : Int} (h : Spells (Text.trim s).toList c) (hc : InRange c) :
      IsNumeral (.text s) c
  | int (c : Int) : IsNumeral (.int c) c
  | long (c : Int) : IsNumeral (.long c) c
  | term {t : Term} {c : Int} (hkind : t.kind = .number)
      (h : Spells (Text.trim t.value.numberText).toList c) (hc : InRange c) :
      IsNumeral (.expr (.of t)) c

/-- A node that is an integer, in wrappers or without. -/
def IsCount (n : Node) (c : Int) : Prop :=
  ∃ core : Node, core.IsWrappedIn n ∧ core.IsNumeral c

/-- The machine integers in a node have 64 bits. -/
def HasWords (n : Node) : Prop :=
  ∀ c, IsWithin (.int c) n ∨ IsWithin (.long c) n → InRange c

/-- The numbers in a node are integers of 64 bits. -/
structure HasWholeNumbers (n : Node) : Prop where
  literals : ∀ literal, IsWithin (.number literal) n → ∃ c, Spells literal.toList c ∧ InRange c
  doubles : ∀ x, ¬ IsWithin (.double x) n

variable {n core : Node} {c : Int}

@[simp]
theorem isWithin_text {s : String} :
  n.IsWithin (.text s) ↔ n = .text s
  := by
  constructor
  · rintro ⟨⟩
    rfl
  · rintro rfl
    exact .self

@[simp]
theorem isWithin_number {literal : String} :
  n.IsWithin (.number literal) ↔ n = .number literal
  := by
  constructor
  · rintro ⟨⟩
    rfl
  · rintro rfl
    exact .self

@[simp]
theorem isWithin_list {items : List Node} :
  n.IsWithin (.list items) ↔ n = .list items ∨ ∃ m ∈ items, n.IsWithin m
  := by
  constructor
  · rintro (_ | ⟨hmem, h⟩)
    · exact .inl rfl
    · exact .inr ⟨_, hmem, h⟩
  · rintro (rfl | ⟨m, hmem, h⟩)
    · exact .self
    · exact .item hmem h

@[simp]
theorem isWithin_object {members : List (String × Node)} :
  n.IsWithin (.object members) ↔ n = .object members ∨ ∃ m ∈ members, n.IsWithin m.2
  := by
  constructor
  · rintro (_ | _ | ⟨hmem, h⟩)
    · exact .inl rfl
    · exact .inr ⟨_, hmem, h⟩
  · rintro (rfl | ⟨m, hmem, h⟩)
    · exact .self
    · exact .member hmem h

theorem IsWithin.trans {a b c : Node} (hab : a.IsWithin b) (hbc : b.IsWithin c) :
  a.IsWithin c
  := by
  induction hbc with
  | self => exact hab
  | item hmem _ ih => exact .item hmem ih
  | member hmem _ ih => exact .member hmem ih

theorem HasWords.within {m : Node} (h : n.HasWords) (hm : m.IsWithin n) :
  m.HasWords
  := by
  intro c hc
  exact h c (hc.imp (·.trans hm) (·.trans hm))

theorem HasWholeNumbers.within {m : Node} (h : n.HasWholeNumbers) (hm : m.IsWithin n) :
  m.HasWholeNumbers
  := by
  constructor
  · intro literal hliteral
    exact h.literals literal (hliteral.trans hm)
  · intro x hx
    exact h.doubles x (hx.trans hm)

theorem integerOfMember?_eq (name : String) (ms : List (String × Node)) :
  integerOfMember? name ms = (lookup? name ms).map integer?
  := by
  apply eq_map_lookup? (by rw [integerOfMember?])
  intro key n ms
  rw [integerOfMember?]
  cases integerOfMember? name ms <;> rfl

theorem integer?_object (members : List (String × Node)) :
  (Node.object members).integer?
    = if objectType members = "number" ∨ objectType members = "" then
        (lookup? "value" members).bind integer?
      else none
  := by
  rw [integer?, integerOfMember?_eq]
  simp only [Bool.or_eq_true, decide_eq_true_eq]
  cases lookup? "value" members <;> rfl

theorem IsWrappedIn.integer?_eq (h : core.IsWrappedIn n) :
  n.integer? = core.integer?
  := by
  induction h with
  | bare => rfl
  | object htype hvalue _ ih => rw [integer?_object, if_pos htype, hvalue, Option.bind_some, ih]

theorem IsWrappedIn.isWithin (h : core.IsWrappedIn n) :
  core.IsWithin n
  := by
  induction h with
  | bare => exact .self
  | object _ hvalue _ ih => exact .member (mem_of_lookup? hvalue) ih

/-- Behind all wrappers there is a node that is none, or a wrapper without an integer. -/
theorem exists_isWrappedIn (n : Node) :
  ∃ core : Node, core.IsWrappedIn n ∧ (core.isObject = true → core.integer? = none)
  := by
  induction hdepth : n.depth using Nat.strongRecOn generalizing n with
  | _ d ih =>
    cases n with
    | object members =>
      by_cases htype : objectType members = "number" ∨ objectType members = ""
      · cases hvalue : lookup? "value" members with
        | none =>
          refine ⟨_, .bare, fun _ => ?_⟩
          rw [integer?_object, if_pos htype, hvalue, Option.bind_none]
        | some m =>
          have hlt : m.depth < d := hdepth ▸ depth_lt_of_lookup? hvalue
          obtain ⟨core, hcore, hnone⟩ := ih m.depth hlt m rfl
          exact ⟨core, .object htype hvalue hcore, hnone⟩
      · refine ⟨_, .bare, fun _ => ?_⟩
        rw [integer?_object, if_neg htype]
    | _ =>
      refine ⟨_, .bare, ?_⟩
      rintro ⟨⟩

theorem integer?_number (literal : String) :
  (Node.number literal).integer? = integerOfLiteral? literal
  := rfl

theorem integer?_text (s : String) :
  (Node.text s).integer? = Integer64.read? (Text.trim s)
  := rfl

theorem integer?_term (t : Term) :
  (Node.expr (.of t)).integer?
    = if t.kind = .number then Integer64.read? (Text.trim t.value.numberText) else none
  := rfl

theorem IsNumeral.integer?_eq (h : n.IsNumeral c) :
  n.integer? = some c
  := by
  cases h with
  | number h hc =>
    rw [integer?_number, integerOfLiteral?, Integer64.read?_eq_some.mpr ⟨h, hc⟩]
  | text h hc => rw [integer?_text, Integer64.read?_eq_some.mpr ⟨h, hc⟩]
  | int | long => rfl
  | term hkind h hc => rw [integer?_term, if_pos hkind, Integer64.read?_eq_some.mpr ⟨h, hc⟩]

/-- Where numbers are whole, the integer that a node gives is the one that it is. -/
theorem integer?_eq_some (h : n.HasWholeNumbers) :
  n.integer? = some c ↔ n.IsCount c
  := by
  constructor
  · intro hinteger
    obtain ⟨core, hcore, hobject⟩ := exists_isWrappedIn n
    rw [hcore.integer?_eq] at hinteger
    refine ⟨core, hcore, ?_⟩
    cases core with
    | number literal =>
      obtain ⟨k, hk, hrange⟩ := h.literals literal hcore.isWithin
      have hread := (IsNumeral.number hk hrange).integer?_eq
      cases hread.symm.trans hinteger
      exact .number hk hrange
    | text s =>
      rw [integer?_text, Integer64.read?_eq_some] at hinteger
      exact .text hinteger.1 hinteger.2
    | int k =>
      cases hinteger
      exact .int c
    | long k =>
      cases hinteger
      exact .long c
    | double x => exact absurd hcore.isWithin (h.doubles x)
    | object members =>
      rw [hobject rfl] at hinteger
      cases hinteger
    | expr e =>
      cases e with
      | missing => cases hinteger
      | of t =>
        rw [integer?_term, Option.ite_none_right_eq_some, Integer64.read?_eq_some] at hinteger
        exact .term hinteger.1 hinteger.2.1 hinteger.2.2
    | _ => cases hinteger
  · rintro ⟨core, hcore, hnumeral⟩
    rw [hcore.integer?_eq, hnumeral.integer?_eq]

theorem inRange_of_toInt64? {x : Binary64} (h : x.toInt64? = some c) :
  InRange c
  := by
  simp only [Binary64.toInt64?, Option.ite_none_right_eq_some, Option.some.injEq] at h
  obtain ⟨-, hrange, rfl⟩ := h
  exact hrange

theorem inRange_of_integer? (hwords : n.HasWords) (h : n.integer? = some c) :
  InRange c
  := by
  obtain ⟨core, hcore, hobject⟩ := exists_isWrappedIn n
  rw [hcore.integer?_eq] at h
  cases core with
  | number literal =>
    rw [integer?_number, integerOfLiteral?] at h
    split at h
    next hread =>
      cases h
      exact Integer64.inRange_of_read? hread
    next =>
      obtain ⟨x, -, hx⟩ := Option.bind_eq_some_iff.mp h
      exact inRange_of_toInt64? hx
  | text s =>
    rw [integer?_text] at h
    exact Integer64.inRange_of_read? h
  | int k =>
    cases h
    exact hwords c (.inl hcore.isWithin)
  | long k =>
    cases h
    exact hwords c (.inr hcore.isWithin)
  | double x => exact inRange_of_toInt64? h
  | object members =>
    rw [hobject rfl] at h
    cases h
  | expr e =>
    cases e with
    | missing => cases h
    | of t =>
      rw [integer?_term, Option.ite_none_right_eq_some] at h
      exact Integer64.inRange_of_read? h.2
  | _ => cases h

theorem integer?_of_items? {items : List Node} (h : n.items? = some items) :
  n.integer? = none
  := by
  cases n with
  | list | exprs => rfl
  | _ => cases h

theorem isNull_eq_false :
  n.isNull = false ↔ n ≠ .null
  := by
  cases n <;> simp [isNull]

end Node

/-! ### The shapes of limits -/

namespace Limit

open Node (lookup? objectType textOf?)

variable {item : Node}

/-- A pair: an object without a type whose value is a list. -/
def IsPair (n : Node) (items : List Node) : Prop :=
  ∃ members value, n = .object members ∧ objectType members = ""
    ∧ lookup? "value" members = some value ∧ value.items? = some items

/-- The word between the items of a pair is `offset`. It is the separator under its misspelled name
or, if there is none, under its name. -/
def SaysOffset (n : Node) : Prop :=
  ∃ members word, n = .object members ∧ Text.lower (Text.trim word) = "offset"
    ∧ (textOf? "seperator" members = some word ∧ word ≠ ""
      ∨ (textOf? "seperator" members).getD "" = "" ∧ textOf? "separator" members = some word)

/-- Where a raw limit has its count: the limit itself, the only item of a list or of a pair, or of a
pair of several items the first or the last one, as the word between them says. -/
inductive IsCountOf (n : Node) : Node → Prop where
  | whole : IsCountOf n n
  | item {item : Node} (h : n.items? = some [item]) : IsCountOf n item
  | single {item : Node} (h : IsPair n [item]) : IsCountOf n item
  | first {first : Node} {rest : List Node} (h : IsPair n (first :: rest)) (hrest : rest ≠ [])
      (hword : SaysOffset n) : IsCountOf n first
  | last {front : List Node} {last : Node} (h : IsPair n (front ++ [last])) (hfront : front ≠ [])
      (hword : ¬ SaysOffset n) : IsCountOf n last

/-- The count that a raw limit gives. -/
def Gives (n : Node) (c : Int) : Prop :=
  ∃ item, IsCountOf n item ∧ item.IsCount c

/-- A limit was given: there is a node, and it is no pair without items. -/
def WasGiven (n : Node) : Prop :=
  n ≠ .null ∧ ¬ IsPair n []

/-- A pair of several items. -/
def IsLongPair (n : Node) : Prop :=
  ∃ items, IsPair n items ∧ 1 < items.length

variable {n : Node} {c : Int} {items : List Node}

theorem pairItems?_eq_some :
  pairItems? n = some items ↔ IsPair n items
  := by
  unfold pairItems? IsPair
  split
  next members =>
    split
    next htype => simp [Option.bind_eq_some_iff, htype]
    next htype => simp [htype]
  next hobject =>
    constructor
    · rintro ⟨⟩
    · rintro ⟨members, value, rfl, -⟩
      exact absurd rfl (hobject members)

theorem IsPair.unique {others : List Node} (h : IsPair n items) (h' : IsPair n others) :
  items = others
  := by
  rw [← pairItems?_eq_some] at h h'
  exact Option.some.inj (h.symm.trans h')

theorem separator_eq_offset :
  separator n = "offset" ↔ SaysOffset n
  := by
  have hblank : Text.lower (Text.trim "") ≠ "offset" := by decide
  constructor
  · intro h
    unfold separator at h
    split at h
    next members =>
      have hname (hsep : (textOf? "seperator" members).getD "" = "")
          (h : Text.lower (Text.trim ((textOf? "separator" members).getD "")) = "offset") :
          SaysOffset (.object members) := by
        cases hword : textOf? "separator" members with
        | none =>
          rw [hword] at h
          exact absurd h hblank
        | some word =>
          rw [hword] at h
          exact ⟨members, word, rfl, h, .inr ⟨hsep, hword⟩⟩
      split at h
      next hsep => exact hname (by rw [hsep]; rfl) h
      next hsep => exact hname (by rw [hsep]; rfl) h
      next word hne hsep => exact ⟨members, word, rfl, h, .inl ⟨hsep, hne⟩⟩
    next => exact absurd h (by decide)
  · rintro ⟨members, word, rfl, hword, ⟨hsep, hne⟩ | ⟨hsep, hname⟩⟩
    · rw [separator, hsep]
      split
      next hempty => exact absurd (Option.some.inj hempty) hne
      next hnone => cases hnone
      next hsome =>
        cases hsome
        exact hword
    · have hnames : Text.lower (Text.trim ((textOf? "separator" members).getD "")) = "offset" := by
        rw [hname]
        exact hword
      rw [separator]
      split
      next => exact hnames
      next => exact hnames
      next other hne hother =>
        rw [hother] at hsep
        exact absurd hsep hne

theorem positive?_eq_some :
  positive? n = some c ↔ n.integer? = some c ∧ 0 < c
  := by
  rw [positive?, Option.filter_eq_some_iff, decide_eq_true_eq]

theorem ofNode_of_long {first : Node} {rest : List Node} (h : IsPair n (first :: rest))
    (hrest : rest ≠ []) :
  ofNode n = ⟨positive? (if separator n = "offset" then first else rest.getLastD first), true⟩
  := by
  unfold ofNode
  rw [pairItems?_eq_some.mpr h]
  split
  next heq => cases heq
  next heq =>
    cases heq
    exact absurd rfl hrest
  next heq =>
    cases heq
    split <;> rfl
  next heq => cases heq

theorem ofNode_of_single (h : IsPair n [item]) :
  ofNode n = ⟨positive? item, false⟩
  := by
  rw [ofNode, pairItems?_eq_some.mpr h]

theorem ofNode_of_empty (h : IsPair n []) :
  ofNode n = ⟨none, false⟩
  := by
  rw [ofNode, pairItems?_eq_some.mpr h]

theorem pairItems?_of_items? (h : n.items? = some items) :
  pairItems? n = none
  := by
  cases n with
  | list | exprs => rfl
  | _ => cases h

theorem ofNode_of_item (h : n.items? = some [item]) :
  ofNode n = ⟨positive? item, false⟩
  := by
  rw [ofNode, pairItems?_of_items? h, h]

/-- A node that gives an integer is neither a pair nor a list. -/
theorem ofNode_of_integer? (h : n.integer? = some c) :
  ofNode n = ⟨positive? n, false⟩
  := by
  have hitems : n.items? = none := by
    cases hitems : n.items? with
    | none => rfl
    | some items => cases h.symm.trans (Node.integer?_of_items? hitems)
  have hpair : pairItems? n = none := by
    cases hpair : pairItems? n with
    | none => rfl
    | some items =>
      obtain ⟨members, value, rfl, htype, hvalue, hvalues⟩ := pairItems?_eq_some.mp hpair
      rw [Node.integer?_object, if_pos (.inr htype), hvalue, Option.bind_some,
        Node.integer?_of_items? hvalues] at h
      cases h
  rw [ofNode, hpair, hitems]

/-- The count of a limit is that of the node where it stands. -/
theorem count?_eq_some :
  (ofNode n).count? = some c ↔ ∃ item, IsCountOf n item ∧ item.integer? = some c ∧ 0 < c
  := by
  simp only [← positive?_eq_some]
  constructor
  · intro h
    cases hpair : pairItems? n with
    | none =>
      rw [ofNode, hpair] at h
      dsimp only at h
      split at h
      next item hitem => exact ⟨item, .item hitem, h⟩
      next => exact ⟨n, .whole, h⟩
    | some items =>
      rw [pairItems?_eq_some] at hpair
      rcases items with _ | ⟨first, rest⟩
      · rw [ofNode_of_empty hpair] at h
        cases h
      rcases rest.eq_nil_or_concat with rfl | ⟨between, last, rfl⟩
      · rw [ofNode_of_single hpair] at h
        exact ⟨first, .single hpair, h⟩
      rw [List.concat_eq_append] at hpair
      rw [ofNode_of_long hpair (by simp), List.getLastD_concat] at h
      dsimp only at h
      split at h
      next hword => exact ⟨first, .first hpair (by simp) (separator_eq_offset.mp hword), h⟩
      next hword =>
        rw [separator_eq_offset] at hword
        exact ⟨last, .last hpair (List.cons_ne_nil first between) hword, h⟩
  · rintro ⟨item, hitem, h⟩
    cases hitem with
    | whole => rwa [ofNode_of_integer? (positive?_eq_some.mp h).1]
    | item hitem => rwa [ofNode_of_item hitem]
    | single hpair => rwa [ofNode_of_single hpair]
    | first hpair hrest hword =>
      rwa [ofNode_of_long hpair hrest, if_pos (separator_eq_offset.mpr hword)]
    | @last front last hpair hfront hword =>
      obtain ⟨first, rest, rfl⟩ := List.exists_cons_of_ne_nil hfront
      rw [List.cons_append] at hpair
      rwa [ofNode_of_long hpair (by simp), if_neg (separator_eq_offset.not.mpr hword),
        List.getLastD_concat]

theorem hasOffset_eq_true :
  (ofNode n).hasOffset = true ↔ IsLongPair n
  := by
  constructor
  · intro h
    unfold ofNode at h
    split at h
    next => cases h
    next => cases h
    next first rest hne hpair =>
      refine ⟨_, pairItems?_eq_some.mp hpair, ?_⟩
      have hpos : 0 < rest.length := List.length_pos_of_ne_nil hne
      rw [List.length_cons]
      omega
    next =>
      split at h
      next => cases h
      next => cases h
  · rintro ⟨items, hpair, hlong⟩
    rcases items with _ | ⟨first, _ | ⟨second, rest⟩⟩
    · cases hlong
    · simp at hlong
    · rw [ofNode_of_long hpair (List.cons_ne_nil _ _)]

theorem isGiven_eq_true :
  isGiven n = true ↔ WasGiven n
  := by
  unfold isGiven WasGiven
  split
  next items hpair =>
    rw [pairItems?_eq_some] at hpair
    have hnull : n ≠ .null := by
      obtain ⟨members, value, rfl, -⟩ := hpair
      rintro ⟨⟩
    rw [Bool.not_eq_true', List.isEmpty_eq_false_iff, and_iff_right hnull]
    constructor
    · intro hne hempty
      exact hne (hpair.unique hempty)
    · rintro hne rfl
      exact hne hpair
  next hnone =>
    have hno : ¬ IsPair n [] := by
      rw [← pairItems?_eq_some, hnone]
      rintro ⟨⟩
    rw [and_iff_left hno, Bool.not_eq_true', Node.isNull_eq_false]

/-! ### The integers of counts -/

theorem isWithin_or_expr_of_items? (h : n.items? = some items) (hitem : item ∈ items) :
  item.IsWithin n ∨ ∃ e, item = .expr e
  := by
  cases n with
  | list =>
    cases h
    exact .inl (.item hitem .self)
  | exprs =>
    cases h
    obtain ⟨e, -, rfl⟩ := List.mem_map.mp hitem
    exact .inr ⟨e, rfl⟩
  | _ => cases h

theorem IsPair.isWithin_or_expr (h : IsPair n items) (hitem : item ∈ items) :
  item.IsWithin n ∨ ∃ e, item = .expr e
  := by
  obtain ⟨members, value, rfl, -, hvalue, hitems⟩ := h
  apply (isWithin_or_expr_of_items? hitems hitem).imp_left
  intro hwithin
  exact .member (Node.mem_of_lookup? hvalue) hwithin

/-- The count of a limit stands within it, or is an expression. -/
theorem IsCountOf.isWithin_or_expr (h : IsCountOf n item) :
  item.IsWithin n ∨ ∃ e, item = .expr e
  := by
  cases h with
  | whole => exact .inl .self
  | item h => exact isWithin_or_expr_of_items? h List.mem_cons_self
  | single h => exact h.isWithin_or_expr List.mem_cons_self
  | first h => exact h.isWithin_or_expr List.mem_cons_self
  | last h => exact h.isWithin_or_expr (by simp)

theorem IsCountOf.hasWords (h : IsCountOf n item) (hwords : n.HasWords) :
  item.HasWords
  := by
  rcases h.isWithin_or_expr with hwithin | ⟨e, rfl⟩
  · exact hwords.within hwithin
  · rintro c (hc | hc) <;> cases hc

theorem IsCountOf.hasWholeNumbers (h : IsCountOf n item) (hwhole : n.HasWholeNumbers) :
  item.HasWholeNumbers
  := by
  rcases h.isWithin_or_expr with hwithin | ⟨e, rfl⟩
  · exact hwhole.within hwithin
  · constructor
    · rintro literal ⟨⟩
    · rintro x ⟨⟩

theorem inRange_of_count? (hwords : n.HasWords) (h : (ofNode n).count? = some c) :
  InRange c
  := by
  obtain ⟨item, hitem, hinteger, -⟩ := count?_eq_some.mp h
  exact Node.inRange_of_integer? (hitem.hasWords hwords) hinteger

/-- The count of a limit is the positive one that it gives. -/
theorem count?_eq_some_iff_gives (hwhole : n.HasWholeNumbers) :
  (ofNode n).count? = some c ↔ Gives n c ∧ 0 < c
  := by
  rw [count?_eq_some]
  constructor
  · rintro ⟨item, hitem, hinteger, hc⟩
    exact ⟨⟨item, hitem, (Node.integer?_eq_some (hitem.hasWholeNumbers hwhole)).mp hinteger⟩, hc⟩
  · rintro ⟨⟨item, hitem, hcount⟩, hc⟩
    exact ⟨item, hitem, (Node.integer?_eq_some (hitem.hasWholeNumbers hwhole)).mpr hcount, hc⟩

end Limit

/-! ### Warnings of queries -/

namespace Warning

open Text (Begins Ends begins_ofList ends_ofList ApartAtStart)

/-- The warnings of a query that are not about its limit or its offset. -/
def IsElsewhere : Warning → Prop
  | .distinctRows | .unvalidatedOrder => True
  | .joinedSource _ | .furtherSources _ | .groupBy | .having | .setOperation _ => True
  | w => w.IsOfExpression

/-- How the warnings of a query begin that are not about its limit, its offset or a set
operation. -/
def elsewhereOpenings : List String :=
  ["LIK", "CQL", "agg", "fun", "DIS", "JOI", "mul", "GRO", "HAV"]

theorem IsOfExpression.isElsewhere (h : w.IsOfExpression) :
  w.IsElsewhere
  := by
  cases w with
  | approximated | orPredicate | unmappedAggregate | unmappedFunction | distinctArgument => exact h
  | _ => exact False.elim h

theorem IsElsewhere.begins (h : w.IsElsewhere) :
  (∃ name, w = .setOperation name) ∨ ∃ start ∈ elsewhereOpenings, Begins w.text start
  := by
  by_cases hset : ∃ name, w = .setOperation name
  · exact .inl hset
  · have hstart : ∃ start ∈ elsewhereOpenings, start.toList <+: w.opening.toList := by
      cases w with
      | setOperation name => exact absurd ⟨name, rfl⟩ hset
      | _ => first | exact False.elim h | (simp only [opening]; decide)
    obtain ⟨start, hmem, hprefix⟩ := hstart
    refine .inr ⟨start, hmem, hprefix.trans (begins_opening ?_)⟩
    rintro text rfl
    exact h

/-- Only the warning about an offset says what it says. -/
theorem IsElsewhere.text_ne_offset (h : w.IsElsewhere) :
  w.text ≠ offset.text
  := by
  rcases h.begins with ⟨name, rfl⟩ | ⟨start, hstart, hbegins⟩
  · have hends : Ends (setOperation name).text "lated" := by
      apply Ends.append
      apply ends_ofList rfl
    have hoffset : Ends offset.text "opped" := ends_ofList rfl
    exact hends.ne hoffset (by decide)
  · have hapart : ∀ start ∈ elsewhereOpenings, ApartAtStart start "OFF" := by decide
    have hoffset : Begins offset.text "OFF" := begins_ofList rfl
    exact hbegins.ne hoffset (hapart start hstart)

/-- Only the warning about a limit says what it says. -/
theorem IsElsewhere.text_ne_unusableLimit (h : w.IsElsewhere) (default : Int) :
  w.text ≠ (unusableLimit default).text
  := by
  rcases h.begins with ⟨name, rfl⟩ | ⟨start, hstart, hbegins⟩
  · have hreport : (setOperation name).IsReport := True.intro
    have hordinary : (unusableLimit default).IsOrdinary := True.intro
    exact (hreport.text_ne hordinary).symm
  · have hapart : ∀ start ∈ elsewhereOpenings, ApartAtStart start "LIM" := by decide
    have hlimit : Begins (unusableLimit default).text "LIM" := (begins_ofList rfl).append _
    exact hbegins.ne hlimit (hapart start hstart)

theorem text_unusableLimit_ne_offset (default : Int) :
  (unusableLimit default).text ≠ offset.text
  := by
  have hreport : offset.IsReport := True.intro
  exact hreport.text_ne True.intro

end Warning

/-! ### Queries -/

namespace Draft

variable {α β : Type} {P : Warning → Prop} {Q : β → List Warning → Prop}

/-- The results of a draft have a property, with the warnings at the end, behind warnings of some
kind. -/
def EndsWith (P : Warning → Prop) (Q : β → List Warning → Prop) (d : Draft β) : Prop :=
  ∀ b ws, d = .ok (b, ws) → ∃ front back, ws = front ++ back ∧ (∀ w ∈ front, P w) ∧ Q b back

theorem Raises.bind_endsWith {d : Draft α} {f : α → Draft β} (hd : d.Raises P)
    (hf : ∀ a, (f a).EndsWith P Q) :
  (d >>= f).EndsWith P Q
  := by
  intro b ws h
  obtain ⟨a, us, vs, hda, hfa, rfl⟩ := bind_eq_ok.mp h
  obtain ⟨front, back, rfl, hfront, hback⟩ := hf a b vs hfa
  refine ⟨us ++ front, back, (List.append_assoc us front back).symm, ?_, hback⟩
  rw [List.forall_mem_append]
  exact ⟨hd a us hda, hfront⟩

theorem warnIf_bind_endsWith {condition : Bool} {f : Unit → Draft β} (hw : P w)
    (hf : (f ()).EndsWith P Q) :
  (warnIf condition w >>= f).EndsWith P Q
  := (raises_warnIf fun _ => hw).bind_endsWith fun _ => hf

end Draft

namespace Select

/-- The warnings about the limit and the offset of a query. -/
def limitWarnings (default : Int) (s : Select) : List Warning :=
  (if (Limit.ofNode s.limit).count? = none ∧ Limit.isGiven s.limit = true then
    [.unusableLimit default] else [])
  ++ if ((Limit.ofNode s.limit).hasOffset || !s.offset.isNull) = true then [.offset] else []

theorem limitOf_eq (default : Int) (s : Select) :
  s.limitOf default
    = .ok ((Limit.ofNode s.limit).count?.getD default, s.limitWarnings default)
  := by
  unfold limitOf limitWarnings
  obtain ⟨count?, hasOffset⟩ := Limit.ofNode s.limit
  dsimp only
  generalize (hasOffset || !s.offset.isNull) = offset
  generalize Limit.isGiven s.limit = given
  cases count? <;> cases offset <;> cases given <;> rfl

/-- A query ends in its limit, and its last warnings are those about the limit. -/
theorem cql_endsWith (default : Int) (s : Select) :
  (s.cql default).EndsWith Warning.IsElsewhere fun text ws =>
    Text.Ends text (" LIMIT " ++ toString ((Limit.ofNode s.limit).count?.getD default))
      ∧ ws = s.limitWarnings default
  := by
  have hexpr (w : Warning) : w.IsOfExpression → w.IsElsewhere := Warning.IsOfExpression.isElsewhere
  apply (raises_baseTable _ fun _ _ => ⟨True.intro, True.intro⟩).bind_endsWith
  intro table
  apply ((raises_columnsCql s.columns).mono hexpr).bind_endsWith
  intro columns
  refine Draft.warnIf_bind_endsWith True.intro ?_
  apply ((raises_filterCql s.filter).mono hexpr).bind_endsWith
  intro filter
  refine Draft.warnIf_bind_endsWith True.intro ?_
  refine Draft.warnIf_bind_endsWith True.intro ?_
  refine Draft.warnIf_bind_endsWith True.intro ?_
  have horder (w : Warning) (hw : w.IsOfExpression ∨ w = .unvalidatedOrder) : w.IsElsewhere := by
    rcases hw with hw | rfl
    · exact hexpr w hw
    · exact True.intro
  apply ((raises_orderCql s.orderBy).mono horder).bind_endsWith
  intro order text ws h
  rw [limitOf_eq] at h
  cases h
  refine ⟨[], _, rfl, List.forall_mem_nil _, ?_, List.append_nil _⟩
  rw [String.append_assoc]
  exact Text.Ends.append _ (List.suffix_refl _)

variable {default : Int} {s : Select} {front : List Warning}

/-- A query warns of its offset if its limit has one or it has one of its own. -/
theorem offset_mem_iff (hfront : ∀ w ∈ front, w.IsElsewhere) :
  Warning.offset.text ∈ (front ++ s.limitWarnings default).map Warning.text
    ↔ (Limit.ofNode s.limit).hasOffset = true ∨ s.offset.isNull = false
  := by
  have hnot : ¬ ∃ w ∈ front, w.text = Warning.offset.text := by
    rintro ⟨w, hw, h⟩
    exact (hfront w hw).text_ne_offset h
  simp [limitWarnings, hnot, Warning.text_unusableLimit_ne_offset]

/-- A query warns of its limit if it has one but no count. -/
theorem unusableLimit_mem_iff {m : Int} (hfront : ∀ w ∈ front, w.IsElsewhere) :
  (Warning.unusableLimit m).text ∈ (front ++ s.limitWarnings default).map Warning.text
    ↔ ((Limit.ofNode s.limit).count? = none ∧ Limit.isGiven s.limit = true)
      ∧ (Warning.unusableLimit default).text = (Warning.unusableLimit m).text
  := by
  have hnot : ¬ ∃ w ∈ front, w.text = (Warning.unusableLimit m).text := by
    rintro ⟨w, hw, h⟩
    exact (hfront w hw).text_ne_unusableLimit m h
  have hoffset : Warning.offset.text ≠ (Warning.unusableLimit m).text :=
    (Warning.text_unusableLimit_ne_offset m).symm
  simp [limitWarnings, hnot, hoffset]

theorem inRange_defaultLimit {setting : Int} (h : InRange setting) :
  InRange (defaultLimit setting)
  := by
  unfold defaultLimit
  split
  next => exact ⟨by decide, by decide⟩
  next => exact h

/-- The count of a query, or a default that is positive and of 64 bits, is so itself. -/
theorem limit_bounds (hdefault : 0 < default) (hrange : InRange default)
    (hwords : s.limit.HasWords) :
  0 < (Limit.ofNode s.limit).count?.getD default
    ∧ InRange ((Limit.ofNode s.limit).count?.getD default)
  := by
  cases hcount : (Limit.ofNode s.limit).count? with
  | none => exact ⟨hdefault, hrange⟩
  | some c => exact ⟨Limit.count_pos hcount, Limit.inRange_of_count? hwords hcount⟩

/-- Every query is bounded. The limit of a rendered query is between one and the greatest integer of
64 bits, and there is a warning of an offset if the limit is a pair of several items or an offset
was given. If the numbers in the limit are integers, the limit is the count that it gives, if that
is positive. Otherwise it is the default, and there is a warning if a limit was given. -/
theorem render_limit {options : RenderingOptions} {s : Select} {r : Rendering}
    (hoption : InRange options.defaultLimit) (hwords : s.limit.HasWords)
    (h : (Statement.select s).render options = .ok r) :
  ∃ n : Int, Text.Ends r.text (" LIMIT " ++ toString n) ∧ 1 ≤ n ∧ n < Integer64.bound
    ∧ (Warning.offset.text ∈ r.warnings ↔ Limit.IsLongPair s.limit ∨ s.offset ≠ .null)
    ∧ (s.limit.HasWholeNumbers →
      (∀ c, Limit.Gives s.limit c → 0 < c →
        n = c ∧ ∀ m, (Warning.unusableLimit m).text ∉ r.warnings)
      ∧ ((∀ c, Limit.Gives s.limit c → c ≤ 0) →
        n = (if options.defaultLimit ≤ 0 then 100 else options.defaultLimit)
          ∧ ((Warning.unusableLimit n).text ∈ r.warnings ↔ Limit.WasGiven s.limit)))
  := by
  rcases @Statement.render_of_draft options (.select s) _ rfl with
    ⟨reason, -, hr⟩ | ⟨text, ws, hd, -, hr⟩
  · cases h.symm.trans hr
  cases h.symm.trans hr
  obtain ⟨front, back, rfl, hfront, hends, rfl⟩ := cql_endsWith _ _ _ _ hd
  have hdefault : InRange (defaultLimit options.defaultLimit) := inRange_defaultLimit hoption
  obtain ⟨hpos, hrange⟩ := limit_bounds (defaultLimit_pos options.defaultLimit) hdefault hwords
  refine ⟨_, hends, hpos, hrange.2, ?_, ?_⟩
  · rw [mem_distinctTexts, offset_mem_iff hfront, Limit.hasOffset_eq_true, Node.isNull_eq_false]
  · intro hwhole
    constructor
    · intro c hgives hc
      have hcount := (Limit.count?_eq_some_iff_gives hwhole).mpr ⟨hgives, hc⟩
      rw [hcount]
      refine ⟨rfl, ?_⟩
      intro m
      rw [mem_distinctTexts, unusableLimit_mem_iff hfront, hcount]
      rintro ⟨⟨⟨⟩, -⟩, -⟩
    · intro hgives
      have hcount : (Limit.ofNode s.limit).count? = none := by
        rw [Option.eq_none_iff_forall_ne_some]
        intro c hcount
        obtain ⟨hc, hcpos⟩ := (Limit.count?_eq_some_iff_gives hwhole).mp hcount
        exact absurd hcpos (Int.not_lt.mpr (hgives c hc))
      rw [hcount]
      refine ⟨rfl, ?_⟩
      rw [Option.getD_none, mem_distinctTexts, unusableLimit_mem_iff hfront, and_iff_left rfl,
        and_iff_right hcount, Limit.isGiven_eq_true]

/-- All of the table `t`, with a limit. -/
def limited (limit : Node) : Select :=
  { Select.blank with
    sources := some [{ TableRef.blank with table := { name := "t" } }]
    limit := limit }

/-- The pair of `LIMIT 10 OFFSET 5`, with its first item in a wrapper. -/
def pageLimit : Node :=
  .object [("seperator", .text " Offset "),
    ("value", .list [.object [("type", .text "number"), ("value", .text " +10")], .number "5"])]

theorem render_limited_page :
  pageLimit.HasWords ∧ pageLimit.HasWholeNumbers ∧ Limit.Gives pageLimit 10
    ∧ ∃ r, (Statement.select (limited pageLimit)).render {} = .ok r
      ∧ Text.Ends r.text " LIMIT 10" ∧ Warning.offset.text ∈ r.warnings
      ∧ ∀ m, (Warning.unusableLimit m).text ∉ r.warnings
  := by
  have hwords : pageLimit.HasWords := by
    rintro c (h | h) <;> simp [pageLimit] at h
  have hfive := Integer64.read?_eq_some.mp (by decide : Integer64.read? "5" = some 5)
  have hten := Integer64.read?_eq_some.mp (by decide : Integer64.read? (Text.trim " +10") = some 10)
  have hwhole : pageLimit.HasWholeNumbers := by
    constructor
    · intro literal h
      obtain rfl : literal = "5" := by simpa [pageLimit] using h
      exact ⟨5, hfive⟩
    · intro x h
      simp [pageLimit] at h
  have hpair : Limit.IsPair pageLimit _ := ⟨_, _, rfl, by decide, rfl, rfl⟩
  have hword : Limit.SaysOffset pageLimit :=
    ⟨_, " Offset ", rfl, by decide, .inl ⟨by decide, by decide⟩⟩
  have hgives : Limit.Gives pageLimit 10 := by
    refine ⟨_, .first hpair (List.cons_ne_nil _ _) hword, _, .object (.inl ?_) rfl .bare, ?_⟩
    · decide
    · exact .text hten.1 hten.2
  have hrender : ∃ r, (Statement.select (limited pageLimit)).render {} = .ok r := by
    refine ⟨⟨"SELECT * FROM t LIMIT 10", [Warning.offset.text]⟩, ?_⟩
    decide
  obtain ⟨r, hr⟩ := hrender
  obtain ⟨n, hends, -, -, hoffset, hcount⟩ := render_limit ⟨by decide, by decide⟩ hwords hr
  obtain ⟨rfl, hnone⟩ := (hcount hwhole).1 10 hgives (by decide)
  exact ⟨hwords, hwhole, hgives, r, hr, hends, hoffset.mpr (.inl ⟨_, hpair, by decide⟩), hnone⟩

/-- A pair may have three items. -/
def tripleLimit : Node :=
  .object [("separator", .text ","), ("value", .list [.number "1", .number "2", .number "3"])]

/-- Of three items, the last one is the count. -/
theorem render_limited_triple :
  Limit.IsPair tripleLimit [.number "1", .number "2", .number "3"]
    ∧ (Statement.select (limited tripleLimit)).render {}
      = .ok { text := "SELECT * FROM t LIMIT 3", warnings := [Warning.offset.text] }
  := by
  refine ⟨⟨_, _, rfl, by decide, rfl, rfl⟩, ?_⟩
  decide

end Select

end CqlGateway

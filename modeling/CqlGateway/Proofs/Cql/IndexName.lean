import CqlGateway.Cql.Expression
import CqlGateway.Cql.IndexName
import CqlGateway.Proofs.Catalog.Definition

/-!
# Names of indexes to drop

Whatever the shape in which the name of an index is given, what is found can be the name of an
index: it is not empty and has neither a dot nor a line break. Where nothing of the kind is found,
the node is rejected.

Main statement: `resolveIndexName_total`.
-/

namespace CqlGateway

variable {s : String} {found : TableName} {n : Node}

/-! ### Texts -/

theorem Text.mem_trimChars {c : Char} (hc : isBlank c = false) (cs : List Char) :
  c ∈ trimChars cs ↔ c ∈ cs
  := by
  have hfront (ds : List Char) : c ∈ ds.dropWhile isBlank ↔ c ∈ ds := by
    constructor
    · intro h
      exact (List.dropWhile_suffix isBlank).subset h
    · intro h
      rw [← List.takeWhile_append_dropWhile (p := isBlank) (l := ds), List.mem_append] at h
      rcases h with h | h
      · rw [List.mem_takeWhile_imp h] at hc
        cases hc
      · exact h
  rw [trimChars, trimBack, List.mem_reverse, hfront, List.mem_reverse, trimFront, hfront]

theorem Cql.mem_unquoteChars {c : Char} (hopen : closingQuote? c = none)
    (hclose : ∀ d, closingQuote? d ≠ some c) (cs : List Char) :
  c ∈ unquoteChars cs ↔ c ∈ cs
  := by
  match cs with
  | [] => rfl
  | [first] => rfl
  | first :: second :: rest =>
    rw [unquoteChars]
    split
    next hquoted =>
      have hlast := List.getLast?_eq_some_getLast (List.cons_ne_nil second rest)
      rw [hlast] at hquoted
      have hfirst : c ≠ first := by
        rintro rfl
        rw [hopen] at hquoted
        cases hquoted
      have hne : c ≠ (second :: rest).getLast (List.cons_ne_nil _ _) := by
        rintro rfl
        exact hclose first hquoted
      rw [List.mem_cons, or_iff_right hfirst,
        ← List.dropLast_append_getLast (List.cons_ne_nil second rest), List.mem_append,
        List.mem_singleton, or_iff_left hne, List.dropLast_concat]
    next => rfl

theorem Cql.dot_mem_unquote (name : String) :
  '.' ∈ (unquote name).toList ↔ '.' ∈ name.toList
  := by
  have hclose (d : Char) : closingQuote? d ≠ some '.' := by
    unfold closingQuote?
    split
    next hd =>
      rintro ⟨⟩
      simp at hd
    next => split <;> simp
  rw [unquote, String.toList_ofList, mem_unquoteChars rfl hclose, Text.mem_trimChars rfl]

theorem NameShape.identifier?_eq_some {name : String} :
  identifier? s = some name
    ↔ name = Cql.unquote s ∧ name ≠ "" ∧ '.' ∉ name.toList ∧ '\n' ∉ name.toList
  := by
  have hmarks : ((Cql.unquote s).toList.any fun c => c = '.' || c = '\n') = false
      ↔ '.' ∉ (Cql.unquote s).toList ∧ '\n' ∉ (Cql.unquote s).toList := by
    rw [List.any_eq_false]
    constructor
    · intro h
      exact ⟨fun hdot => h '.' hdot rfl, fun hbreak => h '\n' hbreak rfl⟩
    · rintro ⟨hdot, hbreak⟩ c hc hmark
      simp only [Bool.or_eq_true, decide_eq_true_eq] at hmark
      rcases hmark with rfl | rfl
      · exact hdot hc
      · exact hbreak hc
  rw [identifier?]
  constructor
  · intro h
    split at h
    next => cases h
    next hno =>
      cases h
      rw [Bool.not_eq_true, Bool.or_eq_false_iff, hmarks, decide_eq_false_iff_not] at hno
      exact ⟨rfl, hno⟩
  · rintro ⟨rfl, hne, hno⟩
    rw [if_neg]
    rw [Bool.not_eq_true, Bool.or_eq_false_iff, hmarks, decide_eq_false_iff_not]
    exact ⟨hne, hno⟩

theorem NameShape.dot_mem_of_splitLastDot? {cs : List Char} {parts : List Char × List Char}
    (h : splitLastDot? cs = some parts) :
  '.' ∈ cs
  := by
  unfold splitLastDot? at h
  split at h
  next hdot => simpa using hdot
  next => cases h

/-- A text is the name of an index as it stands, or with a keyspace before its last dot. -/
theorem resolveIndexName_text_eq_ok :
  (∃ shape, resolveIndexName (.text s) = .ok (found, shape))
    ↔ NameShape.direct? (.text s) = some found
      ∨ NameShape.direct? (.text s) = none ∧ NameShape.dotted? (.text s) = some found
  := by
  have hserialized : NameShape.serialized? (.text s) = none := rfl
  rw [resolveIndexName]
  cases hdirect : NameShape.direct? (.text s) with
  | some name => simp [Node.isNull, NameShape.all, NameShape.firstOf?, NameShape.extract?, hdirect]
  | none =>
    cases hdotted : NameShape.dotted? (.text s) with
    | some name =>
      simp [Node.isNull, NameShape.all, NameShape.firstOf?, NameShape.extract?,
        NameShape.nested?, NameShape.nestedColumn?, NameShape.tableColumn?, hdirect, hdotted]
    | none =>
      simp [Node.isNull, NameShape.all, NameShape.firstOf?, NameShape.extract?,
        NameShape.nested?, NameShape.nestedColumn?, NameShape.tableColumn?, hdirect, hdotted,
        hserialized]

theorem NameShape.direct?_text_eq_some :
  direct? (.text s) = some found
    ↔ found = ⟨"", Cql.unquote s⟩ ∧ Cql.unquote s ≠ "" ∧ '.' ∉ s.toList
      ∧ '\n' ∉ (Cql.unquote s).toList
  := by
  rw [direct?, Option.map_eq_some_iff, ← Cql.dot_mem_unquote]
  constructor
  · rintro ⟨name, hname, rfl⟩
    obtain ⟨rfl, h⟩ := identifier?_eq_some.mp hname
    exact ⟨rfl, h⟩
  · rintro ⟨rfl, h⟩
    exact ⟨_, identifier?_eq_some.mpr ⟨rfl, h⟩, rfl⟩

/-- A text that is taken apart has a dot, and the name has none. -/
theorem NameShape.dot_of_dotted? (h : dotted? (.text s) = some found) :
  '.' ∈ s.toList ∧ '.' ∉ found.name.toList
  := by
  simp only [dotted?, Option.bind_eq_bind, Option.bind_eq_some_iff, Option.pure_def,
    Option.some.injEq] at h
  obtain ⟨⟨before, after⟩, hsplit, name, hname, rfl⟩ := h
  refine ⟨(dot_mem_of_splitLastDot? hsplit), ?_⟩
  exact (identifier?_eq_some.mp hname).2.2.1

/-! ### Every node -/

namespace NameShape

/-- A plain name is found as it stands. -/
theorem identifier?_of_isPlain {x : String} (h : Cql.isPlain x.toList = true) :
  identifier? x = some x
  := by
  have hchars := List.all_eq_true.mp (Cql.nameChars_of_isPlain h)
  rw [identifier?_eq_some, Cql.unquote_of_isPlain h]
  use rfl
  constructor
  · rintro rfl
    cases h
  · constructor
    · intro hdot
      cases hchars '.' hdot
    · intro hbreak
      cases hchars '\n' hbreak

theorem isPlain_of_plainText? {v : Json} (h : plainText? v = some s) :
  Cql.isPlain s.toList = true
  := by
  unfold plainText? at h
  split at h
  next =>
    obtain ⟨hplain, ⟨⟩⟩ := Option.ite_none_right_eq_some.mp h
    apply hplain
  next => cases h

mutual

theorem isPlain_of_search? :
    ∀ v : Json, search? v = some s → Cql.isPlain s.toList = true
  | .array items, h => isPlain_of_searchItems? items h
  | .object members, h => isPlain_of_searchMembers? members h

theorem isPlain_of_searchItems? :
    ∀ vs : List Json, searchItems? vs = some s → Cql.isPlain s.toList = true
  | v :: vs, h => by
    rw [searchItems?] at h
    split at h
    next hfound =>
      cases h
      apply isPlain_of_search? v hfound
    next => apply isPlain_of_searchItems? vs h

theorem isPlain_of_searchMembers? :
    ∀ ms : List (String × Json), searchMembers? ms = some s → Cql.isPlain s.toList = true
  | (key, v) :: ms, h => by
    rw [searchMembers?] at h
    split at h
    next hfound =>
      cases h
      apply isPlain_of_plainText? (Option.ite_none_right_eq_some.mp hfound).2
    next =>
      split at h
      next hfound =>
        cases h
        apply isPlain_of_search? v hfound
      next => apply isPlain_of_searchMembers? ms h

end

theorem exists_identifier?_of_nested? {key : String} (h : nested? key n = some found) :
  ∃ s, identifier? s = some found.name
  := by
  unfold nested? at h
  split at h
  next members =>
    simp only [Option.bind_eq_bind, Option.bind_eq_some_iff, Option.pure_def,
      Option.some.injEq] at h
    obtain ⟨s, _, name, hname, rfl⟩ := h
    exact ⟨s, hname⟩
  next => cases h

/-- Whatever the shape it is found in, a name is one that the test for identifiers lets through. -/
theorem exists_identifier?_of_extract? {shape : NameShape} (h : shape.extract? n = some found) :
  ∃ s, identifier? s = some found.name
  := by
  cases shape with
  | direct =>
    cases n with
    | text s =>
      obtain ⟨name, hname, rfl⟩ := Option.map_eq_some_iff.mp h
      exact ⟨s, hname⟩
    | _ => cases h
  | nestedName | nestedValue => apply exists_identifier?_of_nested? h
  | nestedColumn =>
    cases n with
    | object members => apply exists_identifier?_of_nested? (Option.ite_none_left_eq_some.mp h).2
    | _ => cases h
  | tableColumn =>
    cases n with
    | object members =>
      simp only [extract?, tableColumn?, Option.bind_eq_bind, Option.bind_eq_some_iff,
        Option.pure_def, Option.some.injEq] at h
      obtain ⟨column, _, name, hname, rfl⟩ := h
      exact ⟨column.nameText, hname⟩
    | _ => cases h
  | dotted =>
    cases n with
    | text s =>
      simp only [extract?, dotted?, Option.bind_eq_bind, Option.bind_eq_some_iff,
        Option.pure_def, Option.some.injEq] at h
      obtain ⟨⟨before, after⟩, _, name, hname, rfl⟩ := h
      exact ⟨String.ofList after, hname⟩
    | _ => cases h
  | serialized =>
    simp only [extract?, serialized?, Option.bind_eq_bind, Option.bind_eq_some_iff,
      Option.pure_def, Option.some.injEq] at h
    obtain ⟨v, _, name, hsearch, rfl⟩ := h
    exact ⟨name, identifier?_of_isPlain (isPlain_of_search? v hsearch)⟩

theorem extract?_of_firstOf? {shapes : List NameShape} {shape : NameShape}
    (h : firstOf? n shapes = some (found, shape)) :
  shape.extract? n = some found
  := by
  induction shapes with
  | nil => cases h
  | cons head shapes ih =>
    rw [firstOf?] at h
    split at h
    next hfound =>
      cases h
      apply hfound
    next => apply ih h

/-! ### Qualified names -/

theorem splitLastDot?_append {before after : List Char} (h : '.' ∉ after) :
  splitLastDot? (before ++ '.' :: after) = some (before, after)
  := by
  have hafter (c : Char) (hc : c ∈ after.reverse) : decide (c ≠ '.') = true := by
    apply decide_eq_true
    rintro rfl
    apply h (List.mem_reverse.mp hc)
  have hreverse : (before ++ '.' :: after).reverse = after.reverse ++ '.' :: before.reverse := by
    simp
  rw [splitLastDot?, if_pos (by simp), hreverse, List.dropWhile_append_of_pos hafter,
    List.takeWhile_append_of_pos hafter]
  simp

theorem dot_notMem_of_isPlain {x : String} (h : Cql.isPlain x.toList = true) :
  '.' ∉ x.toList
  := by
  obtain ⟨_, _, hdot, _⟩ := identifier?_eq_some.mp (identifier?_of_isPlain h)
  apply hdot

end NameShape

open NameShape

/-- A text inside any number of wrappers. -/
inductive Node.Wraps (s : String) : Node → Prop
  | bare : Wraps s (.text s)
  | inside {key : String} {n : Node} (hkey : key ∈ ["expr", "value", "name"]) (h : Wraps s n) :
      Wraps s (.object [(key, n)])

theorem Node.Wraps.nameText_eq (h : n.Wraps s) :
  n.nameText = s
  := by
  induction h with
  | bare => rfl
  | inside hkey _ ih =>
    simp only [List.mem_cons, List.not_mem_nil, or_false] at hkey
    rcases hkey with rfl | rfl | rfl <;> simp [nameText, nameOfMember?, ih]

/-- A member `table` and a member `column`, in either order. -/
def Node.tableColumns (table column : Node) : List Node :=
  [.object [("table", table), ("column", column)], .object [("column", column), ("table", table)]]

section

variable {k x : String} (hx : Cql.isPlain x.toList = true)

include hx

theorem resolveIndexName_text_of_isPlain :
  resolveIndexName (.text x) = .ok (⟨"", x⟩, .direct)
  := by
  simp [resolveIndexName, Node.isNull, all, firstOf?, extract?,
    direct?, identifier?_of_isPlain hx]

theorem resolveIndexName_dotted (hk : Cql.isPlain k.toList = true) :
  resolveIndexName (.text (k ++ "." ++ x)) = .ok (⟨k, x⟩, .dotted)
  := by
  have hchars : (k ++ "." ++ x).toList = k.toList ++ '.' :: x.toList := by simp
  have hdirect : direct? (.text (k ++ "." ++ x)) = none := by
    rw [Option.eq_none_iff_forall_ne_some]
    intro found hfound
    obtain ⟨_, _, hdot, _⟩ := direct?_text_eq_some.mp hfound
    rw [hchars] at hdot
    apply hdot
    simp
  have hdotted : dotted? (.text (k ++ "." ++ x)) = some ⟨k, x⟩ := by
    rw [dotted?, hchars,
      splitLastDot?_append (dot_notMem_of_isPlain hx)]
    simp [identifier?_of_isPlain hx, Cql.unquote_of_isPlain hk]
  simp [resolveIndexName, Node.isNull, all, firstOf?, extract?,
    nested?, nestedColumn?, tableColumn?, hdirect, hdotted]

theorem resolveIndexName_member :
  resolveIndexName (.object [("name", .text x)]) = .ok (⟨"", x⟩, .nestedName)
    ∧ resolveIndexName (.object [("column", .text x)]) = .ok (⟨"", x⟩, .nestedColumn)
    ∧ resolveIndexName (.object [("value", .text x)]) = .ok (⟨"", x⟩, .nestedValue)
  := by
  simp [resolveIndexName, Node.isNull, all, firstOf?, extract?,
    direct?, nested?, nestedColumn?, Node.textOf?, Node.lookup?,
    identifier?_of_isPlain hx]

/-- A member `table` keeps the member `column` from being taken alone, whatever it holds. -/
theorem resolveIndexName_tableColumn {table w : Node} (hw : w.Wraps x)
    (hn : n ∈ Node.tableColumns table w) :
  resolveIndexName n = .ok (⟨Cql.unquote (Expr.literalText table), x⟩, .tableColumn)
  := by
  simp only [Node.tableColumns, List.mem_cons, List.not_mem_nil, or_false] at hn
  rcases hn with rfl | rfl
  all_goals
    simp [resolveIndexName, Node.isNull, all, firstOf?, extract?,
      direct?, nested?, nestedColumn?, tableColumn?,
      Node.textOf?, Node.lookup?, hw.nameText_eq, identifier?_of_isPlain hx]
    cases table <;> rfl

end

/-- A name is found that can be that of an index, or the node is rejected as ambiguous. Plain names
are found as they are written: alone, under each of the keys, behind a keyspace and a dot, and in
wrappers beside a table. -/
theorem resolveIndexName_total :
  (∀ n, (∃ r, resolveIndexName n = .error r ∧ r.category = .ambiguousName)
      ∨ ∃ found shape, resolveIndexName n = .ok (found, shape)
        ∧ found.name ≠ "" ∧ '.' ∉ found.name.toList ∧ '\n' ∉ found.name.toList)
    ∧ ∀ k x w, Cql.isPlain k.toList = true → Cql.isPlain x.toList = true → w.Wraps x →
      (resolveIndexName (.text (k ++ "." ++ x)) = .ok (⟨k, x⟩, .dotted)
        ∧ ∀ n ∈ Node.tableColumns (.text k) w, resolveIndexName n = .ok (⟨k, x⟩, .tableColumn))
      ∧ resolveIndexName (.text x) = .ok (⟨"", x⟩, .direct)
      ∧ resolveIndexName (.object [("name", .text x)]) = .ok (⟨"", x⟩, .nestedName)
      ∧ resolveIndexName (.object [("column", .text x)]) = .ok (⟨"", x⟩, .nestedColumn)
      ∧ resolveIndexName (.object [("value", .text x)]) = .ok (⟨"", x⟩, .nestedValue)
      ∧ ∀ n ∈ Node.tableColumns .null w, resolveIndexName n = .ok (⟨"", x⟩, .tableColumn)
  := by
  constructor
  · intro n
    rw [resolveIndexName]
    split
    next found hfound =>
      right
      have hextract := extract?_of_firstOf? (Option.ite_none_left_eq_some.mp hfound).2
      obtain ⟨s, hs⟩ := exists_identifier?_of_extract? hextract
      use found.1, found.2, rfl
      apply (identifier?_eq_some.mp hs).2
    next =>
      left
      use .unresolvedIndexName, rfl
      rfl
  · intro k x w hk hx hw
    obtain ⟨hname, hcolumn, hvalue⟩ := resolveIndexName_member hx
    constructor
    · use resolveIndexName_dotted hx hk
      intro n hn
      rw [resolveIndexName_tableColumn hx hw hn, Expr.literalText, Cql.unquote_of_isPlain hk]
    · use resolveIndexName_text_of_isPlain hx, hname, hcolumn, hvalue
      intro n hn
      rw [resolveIndexName_tableColumn hx hw hn]
      rfl

theorem resolveIndexName_total_byName :
  resolveIndexName (.object [("table", .text "Shop"),
      ("column", .object [("expr", .object [("value", .text "byName")])])])
    = .ok (⟨"Shop", "byName"⟩, .tableColumn)
  := by
  have hwraps : Node.Wraps "byName" (.object [("expr", .object [("value", .text "byName")])]) :=
    .inside (by decide) (.inside (by decide) .bare)
  apply (resolveIndexName_total.2 "Shop" "byName" _ (by decide) (by decide) hwraps).1.2
  simp [Node.tableColumns]

end CqlGateway

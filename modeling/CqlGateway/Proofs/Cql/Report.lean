import CqlGateway.Proofs.Cql.Complete
import CqlGateway.Proofs.Cql.Outcome

/-!
# What drafts report

The warnings that report a clause that is left out are told from all other warnings by how they
begin or how they end. Hence two drafts that come to the same text and differ in a single report
have different renderings, unless another report of the kind is raised in both.
-/

namespace CqlGateway

variable {w : Warning}

/-! ### Warnings of drafts -/

namespace Draft

variable {α β : Type} {P : Warning → Prop} {condition : Bool} {d : Draft α} {f : α → Draft β}

/-- All warnings of a draft have a property. -/
def Raises (P : Warning → Prop) (d : Draft α) : Prop :=
  ∀ a ws, d = .ok (a, ws) → ∀ w ∈ ws, P w

theorem Raises.mono {Q : Warning → Prop} (h : d.Raises P) (hQ : ∀ w, P w → Q w) :
  d.Raises Q
  := fun a ws hd w hw => hQ w (h a ws hd w hw)

theorem raises_pure (a : α) :
  (pure a : Draft α).Raises P
  := by
  rintro b ws ⟨⟩
  apply List.forall_mem_nil

theorem raises_warn (h : P w) :
  (warn w).Raises P
  := by
  rintro u ws ⟨⟩
  apply List.forall_mem_singleton.mpr h

theorem raises_warnIf (h : condition = true → P w) :
  (warnIf condition w).Raises P
  := by
  cases condition with
  | false => apply raises_pure
  | true => apply raises_warn (h rfl)

theorem raises_reject (r : Rejection) :
  (reject r : Draft α).Raises P
  := by
  rintro a ws ⟨⟩

theorem raises_rejectIf (condition : Bool) (r : Rejection) :
  (rejectIf condition r).Raises P
  := by
  cases condition with
  | false => apply raises_pure
  | true => apply raises_reject

/-- What goes on behind a draft need only be looked at for what the draft yields. -/
theorem Raises.bind (hd : d.Raises P) (hf : ∀ a, d.Yields a → (f a).Raises P) :
  (d >>= f).Raises P
  := by
  intro b ws heq
  obtain ⟨a, us, vs, hda, hfa, rfl⟩ := bind_eq_ok.mp heq
  rw [List.forall_mem_append]
  constructor
  · apply hd a us hda
  · apply hf a ⟨us, hda⟩ b vs hfa

theorem Raises.map (f : α → β) (hd : d.Raises P) :
  (f <$> d).Raises P
  := by
  apply Raises.bind hd
  intro a _
  apply raises_pure

theorem raises_rejectIf_bind {r : Rejection} {f : Unit → Draft β} (hf : (f ()).Raises P) :
  (rejectIf condition r >>= f).Raises P
  := by
  apply Raises.bind
  · apply raises_rejectIf
  · intro _ _
    apply hf

theorem raises_warnIf_bind {f : Unit → Draft β} (hw : condition = true → P w)
    (hf : (f ()).Raises P) :
  (warnIf condition w >>= f).Raises P
  := by
  apply Raises.bind (raises_warnIf hw)
  intro _ _
  apply hf

theorem raises_warn_bind {f : Unit → Draft β} (hw : P w) (hf : (f ()).Raises P) :
  (warn w >>= f).Raises P
  := by
  apply Raises.bind (raises_warn hw)
  intro _ _
  apply hf

theorem closed_raises :
  Closed fun _ d => d.Raises P
  where
  pure := raises_pure
  bind := Raises.bind

theorem raises_each {as : List α} (h : ∀ a ∈ as, (f a).Raises P) :
  (each f as).Raises P
  := closed_raises.each h

end Draft

open Draft (Raises raises_pure raises_reject)

/-! ### What warnings say -/

namespace Text

/-- Whether a text begins with another one. -/
def Begins (s start : String) : Prop :=
  start.toList <+: s.toList

/-- Whether a text ends with another one. -/
def Ends (s finish : String) : Prop :=
  finish.toList <:+ s.toList

variable {s t a b : String}

theorem begins_ofList {cs ds : List Char} (h : ds.isPrefixOf cs = true) :
  Begins (String.ofList cs) (String.ofList ds)
  := by
  rw [Begins, String.toList_ofList, String.toList_ofList]
  apply List.isPrefixOf_iff_prefix.mp h

theorem Begins.append (h : Begins s a) (t : String) :
  Begins (s ++ t) a
  := by
  rw [Begins, String.toList_append]
  apply h.trans (List.prefix_append _ _)

theorem ends_ofList {cs ds : List Char} (h : ds.isSuffixOf cs = true) :
  Ends (String.ofList cs) (String.ofList ds)
  := by
  rw [Ends, String.toList_ofList, String.toList_ofList]
  apply List.isSuffixOf_iff_suffix.mp h

theorem Ends.append (s : String) (h : Ends t a) :
  Ends (s ++ t) a
  := by
  rw [Ends, String.toList_append]
  apply h.trans (List.suffix_append _ _)

/-- Two texts neither of which begins with the other. -/
def ApartAtStart (a b : String) : Prop :=
  a.toList.isPrefixOf b.toList = false ∧ b.toList.isPrefixOf a.toList = false
  deriving Decidable

/-- Two texts neither of which ends with the other. -/
def ApartAtEnd (a b : String) : Prop :=
  a.toList.isSuffixOf b.toList = false ∧ b.toList.isSuffixOf a.toList = false
  deriving Decidable

theorem Begins.ne (hs : Begins s a) (ht : Begins t b) (h : ApartAtStart a b) :
  s ≠ t
  := by
  rintro rfl
  rcases List.prefix_or_prefix_of_prefix hs ht with hab | hba
  · rw [← List.isPrefixOf_iff_prefix, h.1] at hab
    cases hab
  · rw [← List.isPrefixOf_iff_prefix, h.2] at hba
    cases hba

theorem Ends.ne (hs : Ends s a) (ht : Ends t b) (h : ApartAtEnd a b) :
  s ≠ t
  := by
  rintro rfl
  rcases List.suffix_or_suffix_of_suffix hs ht with hab | hba
  · rw [← List.isSuffixOf_iff_suffix, h.1] at hab
    cases hab
  · rw [← List.isSuffixOf_iff_suffix, h.2] at hba
    cases hba

theorem ends_toString (n : Int) :
  ∃ c : Char, c.isDigit = true ∧ Ends (toString n) (String.ofList [c])
  := by
  have hne : Nat.toDigits 10 n.natAbs ≠ [] := Nat.toDigits_ne_nil
  use (Nat.toDigits 10 n.natAbs).getLast hne
  constructor
  · apply Nat.isDigit_of_mem_toDigits (by decide) (by decide) (List.getLast_mem hne)
  · rw [Ends, String.toList_ofList, toList_toString_int]
    apply List.IsSuffix.trans _ (List.suffix_append _ _)
    use (Nat.toDigits 10 n.natAbs).dropLast
    apply List.dropLast_append_getLast

end Text

namespace Warning

open Text (Begins Ends begins_ofList ends_ofList ends_toString ApartAtStart ApartAtEnd)

/-- The warnings that do not report a clause that is left out: those of expressions, and those of
clauses that are kept or read in another way. -/
def IsOrdinary : Warning → Prop
  | .approximated text => text = Cql.Operator.likeCaution
  | .assumedViewKey column => column = fallbackKey
  | .orPredicate | .unmappedAggregate _ | .unmappedFunction _ | .distinctArgument _ => True
  | .distinctRows | .unvalidatedOrder | .unusableLimit _ => True
  | .functionalIndex _ | .viewReplacement => True
  | _ => False

theorem IsOfExpression.isOrdinary (h : w.IsOfExpression) :
  w.IsOrdinary
  := by
  cases w with
  | approximated | orPredicate | unmappedAggregate | unmappedFunction | distinctArgument => exact h
  | _ => exact False.elim h

/-- The warnings that report a clause that is left out. -/
def IsReport : Warning → Prop
  | .joinedSource _ | .furtherSources _ | .groupBy | .having | .setOperation _ | .offset => True
  | .mutationOrder _ | .mutationLimit _ | .viewAggregation | .viewOrder => True
  | .uniqueIndex | .singleColumnIndex _ | .partialIndex | .includedColumns | .indexOrder => True
  | _ => False

/-- How ordinary warnings begin. -/
def ordinaryOpenings : List String :=
  ["LIK", "CQL does", "CQL only", "agg", "fun", "DIS", "LIMIT is not a", "no ", "OR "]

/-- How ordinary warnings end that do not end with a number. -/
def ordinaryClosings : List String :=
  ["terns", "icate", "anged", "opped", "lumns", "dated", "ectly", "id", "XISTS"]

/-- How reports begin that do not begin with a word of the statement. -/
def reportOpenings : List String :=
  ["JOI", "mul", "GRO", "HAV", "OFF", "ORD", "LIMIT is not s", "mat", "UNI", "CQL secondary", "par",
    "INC", "ind"]

/-- How a warning begins, if its first words do not depend on the statement. -/
def opening : Warning → String
  | .approximated _ => "LIK"
  | .orPredicate => "CQL does"
  | .distinctRows | .unvalidatedOrder => "CQL only"
  | .unmappedAggregate _ => "agg"
  | .unmappedFunction _ | .functionalIndex _ => "fun"
  | .distinctArgument _ => "DIS"
  | .unusableLimit _ => "LIMIT is not a"
  | .assumedViewKey _ => "no "
  | .viewReplacement => "OR "
  | .joinedSource _ => "JOI"
  | .furtherSources _ => "mul"
  | .groupBy => "GRO"
  | .having => "HAV"
  | .offset => "OFF"
  | .mutationOrder _ | .viewOrder => "ORD"
  | .mutationLimit _ => "LIMIT is not s"
  | .viewAggregation => "mat"
  | .uniqueIndex => "UNI"
  | .singleColumnIndex _ => "CQL secondary"
  | .partialIndex => "par"
  | .includedColumns => "INC"
  | .indexOrder => "ind"
  | _ => ""

theorem begins_opening (h : ∀ text, w = .approximated text → text = Cql.Operator.likeCaution) :
  Begins w.text w.opening
  := by
  cases w with
  | approximated text =>
    rw [h text rfl]
    apply begins_ofList rfl
  | unusableLimit | assumedViewKey => apply (begins_ofList rfl).append
  | unmappedAggregate | unmappedFunction | functionalIndex | distinctArgument | joinedSource
  | furtherSources | mutationOrder | mutationLimit | singleColumnIndex =>
    apply ((begins_ofList rfl).append _).append
  | setOperation | ignoredOptions | assumedKey | unknownType | defaultValue | autoIncrement
  | keyRename | expandedRows => apply List.nil_prefix
  | _ => apply begins_ofList rfl

theorem IsOrdinary.begins (h : w.IsOrdinary) :
  ∃ start ∈ ordinaryOpenings, Begins w.text start
  := by
  refine ⟨w.opening, ?_, begins_opening ?_⟩
  · cases w <;> first | exact False.elim h | simp [opening, ordinaryOpenings]
  · rintro text rfl
    exact h

theorem IsOrdinary.ends (h : w.IsOrdinary) :
  (∃ finish ∈ ordinaryClosings, Ends w.text finish)
    ∨ ∃ c : Char, c.isDigit = true ∧ Ends w.text (String.ofList [c])
  := by
  cases w with
  | approximated text =>
    obtain rfl : text = Cql.Operator.likeCaution := h
    left
    use "terns", by simp [ordinaryClosings]
    apply ends_ofList rfl
  | orPredicate =>
    left
    use "icate", by simp [ordinaryClosings]
    apply ends_ofList rfl
  | unmappedAggregate name | unmappedFunction name =>
    left
    use "anged", by simp [ordinaryClosings]
    apply Ends.append
    apply ends_ofList rfl
  | distinctArgument name =>
    left
    use "opped", by simp [ordinaryClosings]
    apply Ends.append
    apply ends_ofList rfl
  | distinctRows =>
    left
    use "lumns", by simp [ordinaryClosings]
    apply ends_ofList rfl
  | unvalidatedOrder =>
    left
    use "dated", by simp [ordinaryClosings]
    apply ends_ofList rfl
  | unusableLimit default =>
    right
    obtain ⟨c, hc, hends⟩ := ends_toString default
    use c, hc
    apply hends.append
  | functionalIndex column =>
    left
    use "ectly", by simp [ordinaryClosings]
    apply Ends.append
    apply ends_ofList rfl
  | assumedViewKey column =>
    obtain rfl : column = fallbackKey := h
    left
    use "id", by simp [ordinaryClosings]
    apply Ends.append
    apply ends_ofList rfl
  | viewReplacement =>
    left
    use "XISTS", by simp [ordinaryClosings]
    apply ends_ofList rfl
  | _ => apply False.elim h

theorem IsReport.begins (h : w.IsReport) :
  (∃ name, w = .setOperation name) ∨ ∃ start ∈ reportOpenings, Begins w.text start
  := by
  by_cases hset : ∃ name, w = .setOperation name
  · exact .inl hset
  · refine .inr ⟨w.opening, ?_, begins_opening ?_⟩
    · cases w with
      | setOperation name => exact absurd ⟨name, rfl⟩ hset
      | _ => first | exact False.elim h | simp [opening, reportOpenings]
    · rintro text rfl
      exact False.elim h

/-- A report says something that no ordinary warning says. -/
theorem IsReport.text_ne {v : Warning} (hw : w.IsReport) (hv : v.IsOrdinary) :
  v.text ≠ w.text
  := by
  rcases hw.begins with ⟨name, rfl⟩ | ⟨start, hstart, hbegins⟩
  · have hends : Ends (setOperation name).text "lated" := by
      apply Ends.append
      apply ends_ofList rfl
    rcases hv.ends with ⟨finish, hfinish, hv⟩ | ⟨c, hc, hv⟩
    · have hapart : ∀ finish ∈ ordinaryClosings, ApartAtEnd finish "lated" := by decide
      apply hv.ne hends (hapart finish hfinish)
    · have hd : Ends (setOperation name).text "d" := by
        apply Ends.append
        apply ends_ofList rfl
      have hne : c ≠ 'd' := by
        rintro rfl
        cases hc
      apply hv.ne hd
      rw [ApartAtEnd, String.toList_ofList]
      simp [List.isSuffixOf, List.isPrefixOf, hne, hne.symm]
  · have hapart : ∀ start ∈ ordinaryOpenings, ∀ start' ∈ reportOpenings,
        ApartAtStart start start' := by decide
    obtain ⟨opening, hopening, hv⟩ := hv.begins
    apply hv.ne hbegins (hapart opening hopening start hstart)

end Warning

open Warning (IsOfExpression)

/-! ### Drafts that differ in a report -/

namespace Draft

variable {α β : Type} {d : Draft α} {f : α → Draft β}

/-- Two drafts come to the same, but for a report that only the first of them raises. -/
def Reports (d d' : Draft α) : Prop :=
  (∃ r, d = .error r ∧ d' = .error r)
    ∨ ∃ a us w vs, w.IsReport ∧ d = .ok (a, us ++ w :: vs) ∧ d' = .ok (a, us ++ vs)

theorem reports_warnIf {given given' : Bool} {w' : Warning} (hw : w.IsReport) (h : given = true)
    (h' : given' = false) :
  (warnIf given w).Reports (warnIf given' w')
  := by
  rw [h, h']
  apply Or.inr ⟨(), [], w, [], hw, rfl, rfl⟩

theorem bind_of_error {a : α} {us : List Warning} {r : Rejection} (hd : d = .ok (a, us))
    (hf : f a = .error r) :
  d >>= f = .error r
  := bind_eq_error.mpr (.inr ⟨a, ⟨us, hd⟩, hf⟩)

theorem bind_of_ok {a : α} {us : List Warning} {b : β} {vs : List Warning} (hd : d = .ok (a, us))
    (hf : f a = .ok (b, vs)) :
  d >>= f = .ok (b, us ++ vs)
  := bind_eq_ok.mpr ⟨a, us, vs, hd, hf, rfl⟩

theorem Reports.bind {d' : Draft α} (h : d.Reports d') (f : α → Draft β) :
  (d >>= f).Reports (d' >>= f)
  := by
  rcases h with ⟨r, rfl, rfl⟩ | ⟨a, us, w, vs, hw, hd, hd'⟩
  · apply Or.inl ⟨r, rfl, rfl⟩
  · cases hf : f a with
    | error r => apply Or.inl ⟨r, bind_of_error hd hf, bind_of_error hd' hf⟩
    | ok p =>
      apply Or.inr
      use p.1, us, w, vs ++ p.2, hw
      rw [bind_of_ok hd hf, bind_of_ok hd' hf, List.append_assoc, List.append_assoc]
      constructor <;> rfl

theorem reports_warnIf_bind {given given' : Bool} {w' : Warning} {f : Unit → Draft β}
    (hw : w.IsReport) (h : given = true) (h' : given' = false) :
  (warnIf given w >>= f).Reports (warnIf given' w' >>= f)
  := (reports_warnIf hw h h').bind f

theorem Reports.behind (d : Draft α) {g : α → Draft β} (h : ∀ a, (f a).Reports (g a)) :
  (d >>= f).Reports (d >>= g)
  := by
  rcases hd : d with r | ⟨a, ts⟩
  · apply Or.inl ⟨r, rfl, rfl⟩
  · rw [← hd]
    rcases h a with ⟨r, hf, hg⟩ | ⟨b, us, w, vs, hw, hf, hg⟩
    · apply Or.inl ⟨r, bind_of_error hd hf, bind_of_error hd hg⟩
    · apply Or.inr
      use b, ts ++ us, w, vs, hw
      rw [bind_of_ok hd hf, bind_of_ok hd hg, List.append_assoc, List.append_assoc]
      constructor <;> rfl

end Draft

theorem mem_distinctTexts {text : String} {texts : List String} :
  text ∈ distinctTexts texts ↔ text ∈ texts
  := by
  constructor
  · apply mem_of_mem_distinctTexts
  · intro h
    induction texts with
    | nil => apply h
    | cons s ss ih =>
      rw [distinctTexts, List.mem_cons, List.mem_filter]
      by_cases hs : text = s
      · apply Or.inl hs
      · apply Or.inr
        constructor
        · apply ih (List.mem_of_ne_of_mem hs h)
        · simpa using hs

/-- The renderings of two drafts that differ in a report differ, if the other warnings are
ordinary. -/
theorem Draft.Reports.rendering_ne {d d' : Draft String} (h : d.Reports d')
    (hother : d'.Raises Warning.IsOrdinary) {r : Rendering} (hr : d.rendering = .ok r) :
  ∃ r', d'.rendering = .ok r' ∧ r' ≠ r
  := by
  rcases h with ⟨reason, rfl, rfl⟩ | ⟨text, us, w, vs, hw, rfl, rfl⟩
  · cases hr
  · use ⟨text, distinctTexts ((us ++ vs).map Warning.text)⟩, rfl
    rintro rfl
    have hwarnings : distinctTexts ((us ++ w :: vs).map Warning.text)
        = distinctTexts ((us ++ vs).map Warning.text) :=
      congrArg Rendering.warnings (Except.ok.inj hr)
    have hmem : w.text ∈ distinctTexts ((us ++ vs).map Warning.text) := by
      rw [← hwarnings, mem_distinctTexts]
      apply List.mem_map_of_mem
      simp
    obtain ⟨v, hv, heq⟩ := List.mem_map.mp (mem_distinctTexts.mp hmem)
    apply hw.text_ne (hother text _ rfl v hv) heq

/-! ### Warnings of expressions -/

namespace Expr

theorem allows_raises :
  Allows fun _ d => d.Raises IsOfExpression
  where
  toClosed := Draft.closed_raises
  warn := Draft.raises_warn
  reject _ := raises_reject _

/-- The warnings of an expression are those of the terms in it. -/
theorem raises_cql (e : Expr) :
  e.cql.Raises IsOfExpression
  := allows_raises.cql (.inl fun _ => raises_reject)

theorem raises_valueCql (e : Expr) :
  e.valueCql.Raises IsOfExpression
  := by
  induction e using Expr.induction_on with
  | missing => apply raises_reject
  | of t _ _ _ _ _ hitems =>
    rw [valueCql_of]
    split
    · rw [valueCqlAll_eq_each]
      apply (Draft.raises_each hitems).map
    · apply raises_cql

end Expr

end CqlGateway

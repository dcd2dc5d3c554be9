import CqlGateway.Proofs.Cql.Expression

/-!
# Well-spelled terms

A number is well spelled if it is spelled as a JSON number, a function if its name is a plain
identifier, and a parameter if its name is one or a question mark. What the rendering of
well-spelled terms copies can stand as a phrase of its own.
-/

namespace CqlGateway

open Execution

/-! ### Numbers -/

namespace Json

variable {s t : NumberState} {c : Char} {p : Mark}

/-- The characters of a number other than a dash. -/
def isNumberMark (c : Char) : Bool :=
  c.isDigit || c = '.' || c = 'e' || c = 'E' || c = '+'

/-- A dash stands at the start of a number or of its exponent, and nowhere else. -/
theorem NumberState.next?_cases (h : s.next? c = some t) :
  isNumberMark c = true ∧ t ≠ .minus
    ∨ c = '-' ∧ (s = .start ∧ t = .minus ∨ s = .exponent ∧ t = .exponentSign)
  := by
  have hzero : isNumberMark '0' = true := rfl
  cases s <;> simp only [next?] at h <;> (repeat' split at h) <;> cases h
    <;> grind [isNumberMark]

/-- Behind a sign or outside of everything, a character of a number leads outside. -/
theorem next?_of_isNumberMark (hp : p = .plain ∨ p = .dash) (hc : isNumberMark c = true) :
  p.next? false c = some .plain
  := by
  have hne : ∀ d : Char, isNumberMark d = false → c ≠ d := by
    rintro d hd rfl
    rw [hd] at hc
    cases hc
  have hopening : Mark.opening c = .plain := by
    simp [Mark.opening, hne '-' (by decide), hne '/' (by decide), hne '\x27' (by decide),
      hne '"' (by decide)]
  rw [Mark.next?_eq_some]
  rcases hp with rfl | rfl
  · simp [Mark.ends, Mark.next, hopening, hne ';' (by decide)]
  · simp [Mark.ends, Mark.next, hopening, hne ';' (by decide), hne '-' (by decide)]

/-- With how much of a number read a scan is behind a dash. -/
def NumberState.standsAt : NumberState → Mark → Prop
  | .minus, p => p = .dash
  | .exponentSign, p => p = .plain ∨ p = .dash
  | _, p => p = .plain

theorem NumberState.eq_plain_of_isFinal (hs : s.isFinal = true) (hp : s.standsAt p) :
  p = .plain
  := by
  cases s with
  | zero | whole | fraction | power => apply hp
  | start | minus | point | exponent | exponentSign => cases hs

/-- The scan of a number goes along with the reading of it. -/
theorem NumberState.walk_next? (hp : s.standsAt p) (h : s.next? c = some t) :
  ∃ q, p.next? false c = some q ∧ t.standsAt q
  := by
  have hmarks : p = .plain ∨ p = .dash := by
    cases s <;> simp_all [standsAt]
  rcases NumberState.next?_cases h with ⟨hc, ht⟩ | ⟨rfl, ⟨rfl, rfl⟩ | ⟨rfl, rfl⟩⟩
  · refine ⟨.plain, next?_of_isNumberMark hmarks hc, ?_⟩
    cases t <;> simp_all [standsAt]
  · obtain rfl : p = .plain := hp
    exact ⟨.dash, rfl, rfl⟩
  · obtain rfl : p = .plain := hp
    exact ⟨.dash, rfl, .inr rfl⟩

theorem NumberState.walk_foldlM {cs : List Char} (hp : s.standsAt p)
    (h : cs.foldlM NumberState.next? s = some t) :
  ∃ q, walk false p cs = some q ∧ t.standsAt q
  := by
  induction cs generalizing s p with
  | nil =>
    obtain rfl : s = t := by simpa using h
    exact ⟨p, rfl, hp⟩
  | cons c cs ih =>
    rw [List.foldlM_cons] at h
    obtain ⟨u, hu, ht⟩ := Option.bind_eq_some_iff.mp h
    obtain ⟨q, hq, huq⟩ := NumberState.walk_next? hp hu
    obtain ⟨r, hr, htr⟩ := ih huq ht
    refine ⟨r, ?_, htr⟩
    rw [walk_cons, hq]
    apply hr

theorem NumberState.isDigit_of_isFinal (h : s.next? c = some t) (ht : t.isFinal = true) :
  c.isDigit = true
  := by
  cases s <;> simp only [next?] at h <;> (repeat' split at h) <;> cases h
    <;> simp_all [isFinal]

theorem endsSolid_of_isNumber {cs : List Char} (h : isNumber cs = true) :
  Text.endsSolid cs = true
  := by
  unfold isNumber at h
  split at h
  next t hread =>
    rcases List.eq_nil_or_concat cs with rfl | ⟨ds, c, rfl⟩
    · cases hread
      cases h
    · rw [List.concat_eq_append, List.foldlM_append] at hread
      obtain ⟨u, -, hlast⟩ := Option.bind_eq_some_iff.mp hread
      have hnext : u.next? c = some t := by simpa using hlast
      have hc := NumberState.isDigit_of_isFinal hnext h
      have hname : Cql.isNameChar c = true := by simp [Cql.isNameChar, Char.isAlphanum, hc]
      rw [List.concat_eq_append]
      apply Text.endsSolid_append
      simp [Text.endsSolid, Cql.isBlank_of_isNameChar hname]
  next => cases h

theorem isWord_of_isNumber {s : String} (h : isNumber s.toList = true) :
  Cql.isWord s = true
  := by
  have hends := endsSolid_of_isNumber h
  unfold isNumber at h
  split at h
  next t hread =>
    have hstart : NumberState.start.standsAt .plain := by simp [NumberState.standsAt]
    obtain ⟨q, hwalk, hq⟩ := NumberState.walk_foldlM hstart hread
    obtain rfl := NumberState.eq_plain_of_isFinal h hq
    simp [Cql.isWord, leadsOut, hwalk, hends]
  next => cases h

end Json

namespace Cql

theorem isWord_toString_nat (n : Nat) :
  isWord (toString n) = true
  := by
  have hchars : (toString n).toList = Nat.toDigits 10 n := by
    rw [Nat.toString_eq_repr, Nat.repr, String.toList_ofList]
  have hname : (Nat.toDigits 10 n).all isNameChar = true := by
    rw [List.all_eq_true]
    intro c hc
    simp [isNameChar, Char.isAlphanum, Nat.isDigit_of_mem_toDigits (by decide) (by decide) hc]
  rw [isWord, hchars, leadsOut_of_nameChars hname, endsSolid_of_nameChars hname Nat.toDigits_ne_nil]
  rfl

theorem isWord_toString_of_nonneg {n : Int} (hn : 0 ≤ n) :
  isWord (toString n) = true
  := by
  obtain ⟨m, rfl⟩ := Int.eq_ofNat_of_zero_le hn
  apply isWord_toString_nat

end Cql

/-! ### Terms -/

/-- Whether a term is spelled so that its rendering can be read back. -/
def Term.isWellSpelled (t : Term) : Bool :=
  match t.kind with
  | .number => Json.isNumber t.value.display.toList
  | .function | .aggregate => Cql.isPlain t.name.toList
  | .param => t.name = "?" || Cql.isPlain t.name.toList
  | _ => true

namespace Expr

/-- A well-spelled parameter keeps its name. -/
theorem paramCql_cases {name : String} (h : name = "?" ∨ Cql.isPlain name.toList = true) :
  paramCql name = "?" ∨ Cql.isPlain name.toList = true ∧ paramCql name = ":" ++ name
  := by
  rcases h with rfl | hplain
  · apply Or.inl rfl
  · have hkeep : name.toList.dropWhile (fun c => c = ':' || c = '$' || c = '@') = name.toList := by
      cases hchars : name.toList with
      | nil => rfl
      | cons c cs =>
        rw [hchars] at hplain
        apply List.dropWhile_cons_of_neg
        rintro hc
        simp only [Bool.or_eq_true, decide_eq_true_eq] at hc
        rcases hc with (rfl | rfl) | rfl <;> cases hplain
    rw [paramCql, hkeep, String.ofList_toList]
    split
    · apply Or.inl rfl
    · apply Or.inr ⟨hplain, rfl⟩

theorem isWord_paramCql {name : String} (h : name = "?" ∨ Cql.isPlain name.toList = true) :
  Cql.isWord (paramCql name) = true
  := by
  rcases paramCql_cases h with hmark | ⟨hplain, hname⟩
  · rw [hmark]
    decide
  · have hword := Cql.isWord_of_isPlain hplain
    rw [Cql.isWord, Bool.and_eq_true] at hword ⊢
    rw [hname, String.toList_append]
    exact ⟨leadsOut_append (by decide) hword.1, Text.endsSolid_append hword.2 _⟩

theorem terms_of (t : Term) :
  (Expr.of t).terms
    = t :: (t.left.terms ++ t.right.terms ++ t.operand.terms ++ termsOf t.args ++ termsOf t.items)
  := by
  cases t
  rw [terms]

@[simp]
theorem mem_termsOf {t : Term} {es : List Expr} :
  t ∈ termsOf es ↔ ∃ e ∈ es, t ∈ e.terms
  := by
  induction es with
  | nil => simp [termsOf]
  | cons e es ih => simp [termsOf, ih]

/-- What the rendering of well-spelled terms copies can stand as a phrase. -/
theorem isWord_of_isWellSpelled
    (e : Expr) (he : ∀ t ∈ e.terms, t.isWellSpelled = true) :
  ∀ s ∈ e.copiedTexts, Cql.isWord s = true
  := by
  induction e using Expr.induction_on with
  | missing =>
    intro s hs
    cases hs
  | of t hleft hright _ hoperand hargs hitems =>
    simp only [terms_of, List.forall_mem_cons, List.forall_mem_append] at he
    obtain ⟨ht, ⟨⟨⟨hl, hr⟩, ho⟩, ha⟩, hi⟩ := he
    have hall (es : List Expr)
        (hes : ∀ e ∈ es, (∀ t ∈ e.terms, t.isWellSpelled = true) →
          ∀ s ∈ e.copiedTexts, Cql.isWord s = true)
        (hterms : ∀ t ∈ termsOf es, t.isWellSpelled = true) :
        ∀ s ∈ copiedTextsAll es, Cql.isWord s = true := by
      intro s hs
      obtain ⟨e, hmem, hs⟩ := mem_copiedTextsAll.mp hs
      apply hes e hmem _ s hs
      intro u hu
      apply hterms u (mem_termsOf.mpr ⟨e, hmem, hu⟩)
    have hcall (hname : Cql.isPlain t.name.toList = true) :
        ∀ s ∈ if (Cql.Function.ofName t.name).nullary then []
          else (Cql.Function.ofName t.name).name :: copiedTextsAll t.args,
          Cql.isWord s = true := by
      split
      · intro s hs
        cases hs
      · rw [List.forall_mem_cons]
        exact ⟨Cql.isWord_of_isPlain (Cql.Function.isPlain_ofName hname), hall t.args hargs ha⟩
    rw [copiedTexts_of]
    unfold Term.isWellSpelled at ht
    cases hkind : t.kind with
    | number =>
      rw [hkind] at ht
      simpa using Json.isWord_of_isNumber ht
    | param =>
      rw [hkind] at ht
      simpa using isWord_paramCql (by simpa using ht)
    | function =>
      rw [hkind] at ht
      apply hcall ht
    | aggregate =>
      rw [hkind] at ht
      apply hcall ht
    | list => apply hall t.items hitems hi
    | binary =>
      rw [List.forall_mem_append]
      exact ⟨hleft hl, hright hr⟩
    | unary => apply hoperand ho
    | column | text | bool | null | star | subquery | other name => simp

end Expr

end CqlGateway

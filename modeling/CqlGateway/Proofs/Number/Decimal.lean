import CqlGateway.Json.Token
import CqlGateway.Number.Integer64
import Mathlib.Data.Nat.Basic
import Mathlib.Tactic.Common

/-!
# Decimal text of whole numbers

The decimal text of a whole number spells a number of a document. A number of 64 bits is read from
the texts that spell it, and from no others.
-/

namespace CqlGateway

theorem toList_toString_nat (n : Nat) :
  (toString n).toList = Nat.toDigits 10 n
  := by
  rw [Nat.toString_eq_repr, Nat.repr, String.toList_ofList]

/-- The text of an integer is a sign, if it is negative, and the digits of its magnitude. -/
theorem toList_toString_int (n : Int) :
  (toString n).toList = (if 0 ≤ n then [] else ['-']) ++ Nat.toDigits 10 n.natAbs
  := by
  rw [Int.toString_eq_repr, Int.repr_eq_if]
  split
  next hn =>
    rw [← Nat.toString_eq_repr, toList_toString_nat, List.nil_append]
    congr 1
    omega
  next hn =>
    rw [String.toList_append, ← Nat.toString_eq_repr, toList_toString_nat]
    congr 2
    omega

namespace Json

theorem NumberState.next?_digitChar {s : NumberState} (hs : s = .start ∨ s = .minus) {d : Nat}
    (hd : d < 10) :
  s.next? d.digitChar = some (if d = 0 then .zero else .whole)
  := by
  have hdigit : d.digitChar.isDigit = true := by
    rw [Nat.isDigit_digitChar]
    exact decide_eq_true hd
  have hminus : d.digitChar ≠ '-' := by
    intro heq
    rw [heq] at hdigit
    cases hdigit
  rcases hs with rfl | rfl <;> simp [NumberState.next?, hdigit, hminus] <;> split <;> rfl

/-- Digits lead from the front of a number to its whole part. -/
theorem NumberState.foldlM_toDigits {s : NumberState} (hs : s = .start ∨ s = .minus) (n : Nat) :
  (Nat.toDigits 10 n).foldlM NumberState.next? s = some (if n = 0 then .zero else .whole)
  := by
  induction n using Nat.strongRecOn with
  | _ n ih =>
    rw [Nat.toDigits_eq_if (by decide)]
    split
    next hn =>
      rw [List.foldlM_cons, NumberState.next?_digitChar hs hn]
      rfl
    next hn =>
      have hlast : (n % 10).digitChar.isDigit = true := by
        rw [Nat.isDigit_digitChar]
        exact decide_eq_true (Nat.mod_lt n (by decide))
      have hfront : n / 10 ≠ 0 := by omega
      rw [List.foldlM_append, ih (n / 10) (by omega), if_neg hfront, if_neg (by omega)]
      simp [NumberState.next?, hlast]

theorem isNumber_toString (n : Int) :
  isNumber (toString n).toList = true
  := by
  have hfinal (m : Nat) : (if m = 0 then NumberState.zero else .whole).isFinal = true := by
    split <;> rfl
  unfold isNumber
  rw [toList_toString_int]
  by_cases hn : 0 ≤ n
  · rw [if_pos hn, List.nil_append, NumberState.foldlM_toDigits (.inl rfl)]
    apply hfinal
  · rw [if_neg hn, List.singleton_append, List.foldlM_cons]
    have hminus : NumberState.next? .start '-' = some .minus := rfl
    rw [hminus, Option.bind_eq_bind, Option.bind_some, NumberState.foldlM_toDigits (.inr rfl)]
    apply hfinal

end Json

namespace Integer64

variable {cs : List Char} {n : Int}

/-- The numbers of 64 bits. -/
def InRange (n : Int) : Prop :=
  -bound ≤ n ∧ n < bound

/-- Characters that are digits, at least one. -/
def IsDigits (cs : List Char) : Prop :=
  cs ≠ [] ∧ ∀ c ∈ cs, c.isDigit = true

/-- Characters spell an integer: digits, with a sign in front or without. -/
inductive Spells : List Char → Int → Prop where
  | bare {cs : List Char} (h : IsDigits cs) : Spells cs (Nat.ofDigitChars 10 cs 0)
  | plus {cs : List Char} (h : IsDigits cs) : Spells ('+' :: cs) (Nat.ofDigitChars 10 cs 0)
  | minus {cs : List Char} (h : IsDigits cs) : Spells ('-' :: cs) (-(Nat.ofDigitChars 10 cs 0))

theorem le_ofDigitChars (cs : List Char) (n : Nat) :
  n ≤ Nat.ofDigitChars 10 cs n
  := by
  induction cs generalizing n with
  | nil => apply Nat.le_refl
  | cons c cs ih =>
    rw [Nat.ofDigitChars_cons]
    apply Nat.le_trans _ (ih _)
    omega

/-- Reading does not stop before the end of digits if the number that they spell fits a word. -/
theorem magnitudeFrom_eq_ok {m n : Nat} (hm : m < wordBound) :
  magnitudeFrom m cs = .ok n
    ↔ (∀ c ∈ cs, c.isDigit = true) ∧ n = Nat.ofDigitChars 10 cs m ∧ n < wordBound
  := by
  induction cs generalizing m with
  | nil =>
    rw [magnitudeFrom, Nat.ofDigitChars_nil]
    constructor
    · rintro ⟨⟩
      exact ⟨List.forall_mem_nil _, rfl, hm⟩
    · rintro ⟨-, rfl, -⟩
      rfl
  | cons c cs ih =>
    have hvalue : 10 * m + (c.toNat - '0'.toNat) = m * 10 + (c.toNat - 48) := by
      rw [Nat.mul_comm]
      rfl
    rw [magnitudeFrom, List.forall_mem_cons, Nat.ofDigitChars_cons, hvalue]
    dsimp only
    split
    next hc =>
      split
      next hlt =>
        rw [ih hlt]
        simp only [hc, true_and]
      next hge =>
        have hle := le_ofDigitChars cs (m * 10 + (c.toNat - 48))
        constructor
        · rintro ⟨⟩
        · rintro ⟨-, rfl, hlt⟩
          omega
    next hc =>
      constructor
      · rintro ⟨⟩
      · rintro ⟨⟨hdigit, -⟩, -⟩
        exact absurd hdigit hc

theorem magnitude_eq_ok {n : Nat} :
  magnitude cs = .ok n ↔ IsDigits cs ∧ n = Nat.ofDigitChars 10 cs 0 ∧ n < wordBound
  := by
  unfold magnitude IsDigits
  split
  next hempty =>
    constructor
    · rintro ⟨⟩
    · rintro ⟨⟨hne, -⟩, -⟩
      exact absurd (List.isEmpty_iff.mp hempty) hne
  next hne =>
    rw [magnitudeFrom_eq_ok (by decide)]
    simp only [List.isEmpty_iff] at hne
    simp only [ne_eq, hne, not_false_eq_true, true_and]

/-- A sign and digits are read as the number that they spell, if it is one of 64 bits. -/
theorem signed_eq_ok {negative : Bool} :
  signed negative cs = .ok n
    ↔ IsDigits cs
      ∧ n = (if negative then -(Nat.ofDigitChars 10 cs 0 : Int) else Nat.ofDigitChars 10 cs 0)
      ∧ InRange n
  := by
  have hbounds : bound < wordBound ∧ 0 < bound := by decide
  unfold signed InRange
  generalize hvalue : Nat.ofDigitChars 10 cs 0 = value
  cases hmagnitude : magnitude cs with
  | ok m =>
    obtain ⟨hdigits, rfl, hlt⟩ := magnitude_eq_ok.mp hmagnitude
    simp only [hdigits, true_and, hvalue] at hlt ⊢
    cases negative with
    | true =>
      simp only [if_true]
      split
      next hle =>
        rw [Except.ok.injEq]
        omega
      next hgt =>
        simp only [reduceCtorEq, false_iff]
        omega
    | false =>
      simp only [Bool.false_eq_true, if_false]
      split
      next hlt =>
        rw [Except.ok.injEq]
        omega
      next hge =>
        simp only [reduceCtorEq, false_iff]
        omega
  | error e =>
    simp only [reduceCtorEq, false_iff]
    rintro ⟨hdigits, rfl, hlow, hhigh⟩
    have hlt : value < wordBound := by
      cases negative with
      | true =>
        simp only [if_true] at hlow
        omega
      | false =>
        simp only [Bool.false_eq_true, if_false] at hhigh
        omega
    cases hmagnitude.symm.trans (magnitude_eq_ok.mpr ⟨hdigits, hvalue.symm, hlt⟩)

theorem IsDigits.head_ne {c : Char} (h : IsDigits (c :: cs)) {d : Char} (hd : d.isDigit = false) :
  c ≠ d
  := by
  rintro rfl
  rw [h.2 c List.mem_cons_self] at hd
  cases hd

/-- What is read is what is spelled, within 64 bits. -/
theorem read?_eq_some {s : String} :
  read? s = some n ↔ Spells s.toList n ∧ InRange n
  := by
  have hread : read? s = some n ↔ readChars s.toList = .ok n := by
    unfold read? read
    cases readChars s.toList <;> simp [Except.toOption]
  rw [hread]
  generalize s.toList = cs
  unfold readChars
  split
  next ds =>
    rw [signed_eq_ok]
    constructor
    · rintro ⟨hdigits, rfl, hrange⟩
      exact ⟨.minus hdigits, hrange⟩
    · rintro ⟨hspells, hrange⟩
      cases hspells with
      | bare hdigits => exact absurd rfl (hdigits.head_ne (by decide))
      | minus hdigits => exact ⟨hdigits, rfl, hrange⟩
  next ds =>
    rw [signed_eq_ok]
    constructor
    · rintro ⟨hdigits, rfl, hrange⟩
      exact ⟨.plus hdigits, hrange⟩
    · rintro ⟨hspells, hrange⟩
      cases hspells with
      | bare hdigits => exact absurd rfl (hdigits.head_ne (by decide))
      | plus hdigits => exact ⟨hdigits, rfl, hrange⟩
  next hminus hplus =>
    rw [signed_eq_ok]
    constructor
    · rintro ⟨hdigits, rfl, hrange⟩
      exact ⟨.bare hdigits, hrange⟩
    · rintro ⟨hspells, hrange⟩
      cases hspells with
      | bare hdigits => exact ⟨hdigits, rfl, hrange⟩
      | plus => exact absurd rfl (hplus _)
      | minus => exact absurd rfl (hminus _)

theorem inRange_of_read? {s : String} (h : read? s = some n) :
  InRange n
  := (read?_eq_some.mp h).2

theorem isDigits_toDigits (n : Nat) :
  IsDigits (Nat.toDigits 10 n)
  := ⟨Nat.toDigits_ne_nil, fun _ hc => Nat.isDigit_of_mem_toDigits (by decide) (by decide) hc⟩

theorem spells_toString (n : Int) :
  Spells (toString n).toList n
  := by
  have hvalue : Nat.ofDigitChars 10 (Nat.toDigits 10 n.natAbs) 0 = n.natAbs :=
    Nat.ofDigitChars_toDigits (by decide) (by decide)
  rw [toList_toString_int]
  split
  next hn =>
    have hspells := Spells.bare (isDigits_toDigits n.natAbs)
    rwa [hvalue, Int.natAbs_of_nonneg hn] at hspells
  next hn =>
    have hspells := Spells.minus (isDigits_toDigits n.natAbs)
    rwa [hvalue, Int.ofNat_natAbs_of_nonpos (by omega), Int.neg_neg] at hspells

theorem read?_toString (h : InRange n) :
  read? (toString n) = some n
  := read?_eq_some.mpr ⟨spells_toString n, h⟩

end Integer64

end CqlGateway

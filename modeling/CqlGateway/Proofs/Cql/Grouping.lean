import CqlGateway.Proofs.Cql.Calculation

/-!
# Grouping in rendered calculations

A calculation is rendered without parentheses, but for what starts with a sign and stands behind
one. So the text can be read as another calculation.

Whether an operand can do without parentheses depends on how its text is divided and on what stands
before it. Main statement: a calculation in which each operand can do without them keeps its value,
whatever the remainder is.
-/

namespace CqlGateway

namespace Cql.Calculation

/-! ### What is rendered -/

/-- Whether the text of a calculation starts with a sign. -/
def isSigned : Calculation → Bool
  | .column _ | .number _ => false
  | .minus _ => true
  | .binary _ left _ => left.isSigned

/-- The tokens that a calculation is rendered as. -/
def spelling : Calculation → List Token
  | .column name => [.name name]
  | .number digits => [.number digits]
  | .minus a =>
    if a.isSigned then .mark '-' :: .mark '(' :: (a.spelling ++ [.mark ')'])
    else .mark '-' :: a.spelling
  | .binary op left right => left.spelling ++ .mark op.mark :: right.spelling

/-- What a calculation is read as from its tokens, where an operand is waited for. -/
def reading : Calculation → Frame → Reading
  | .column name, f => f.fill (.column name)
  | .number digits, f => f.fill (.number digits)
  | .minus a, f => if a.isSigned then f.fill (.minus (a.reading {}).whole) else a.reading f.sign
  | .binary op left right, f => right.reading ((left.reading f).frame op)

/-- What the rendering of a calculation is read as. -/
def regrouped (a : Calculation) : Calculation :=
  (a.reading {}).whole

theorem run?_spelling (a : Calculation) (f : Frame) (outer : List Frame) :
  Place.run? (.before f outer) a.spelling = some (.behind (a.reading f) outer)
  := by
  induction a generalizing f outer with
  | column name => rfl
  | number digits => rfl
  | minus a ih =>
    by_cases hsigned : a.isSigned
    · rw [spelling, reading, if_pos hsigned, if_pos hsigned]
      change Place.run? (.before {} (f.sign :: outer)) (a.spelling ++ [Token.mark ')']) = _
      rw [Place.run?_append, ih]
      rfl
    · rw [spelling, reading, if_neg hsigned, if_neg hsigned]
      apply ih
  | binary op left right ihleft ihright =>
    rw [spelling, reading, Place.run?_append, ihleft, Option.bind_some, Place.run?_cons,
      Place.next?_operation, Option.bind_some, ihright]

theorem read?_spelling (a : Calculation) :
  read? a.spelling = some a.regrouped
  := by
  rw [read?, run?_spelling]
  rfl

/-! ### What keeps its value -/

/-- How the text of a calculation is divided: not at all, into factors and divisors, into factors
with a remainder among them, or into the parts of a sum. -/
inductive Shape where
  | single
  | product
  | remainder
  | sum
  deriving DecidableEq, Repr

/-- How the text of a calculation is divided. -/
def shape : Calculation → Shape
  | .column _ | .number _ => .single
  | .minus a => if a.isSigned then .single else a.shape
  | .binary op left _ =>
    if !op.isTight then .sum
    else if op = .remainder || left.shape = .remainder then .remainder
    else .product

end Cql.Calculation

namespace Cql.ArithmeticOp

open Calculation (Shape)

/-- Whether an operation can be performed behind a left operand of the given shape. -/
def takesLeft (op : ArithmeticOp) (s : Shape) : Bool :=
  !op.isTight || s ≠ .sum

/-- Whether an operation can be performed with the first part of a right operand of the given shape
before the other parts. -/
def takesRight : ArithmeticOp → Shape → Bool
  | .add, _ => true
  | .subtract, s => s ≠ .sum
  | .multiply, s => s = .single || s = .product
  | .divide, s => s = .single
  | .remainder, s => s = .single

end Cql.ArithmeticOp

namespace Cql.Calculation

/-- Whether each operand can do without parentheses. -/
def keepsGrouping : Calculation → Bool
  | .column _ | .number _ => true
  | .minus a => a.keepsGrouping && (a.isSigned || a.shape = .single || a.shape = .product)
  | .binary op left right =>
    left.keepsGrouping && right.keepsGrouping && op.takesLeft left.shape
      && op.takesRight right.shape

/-- Two calculations have the same value, whatever the values of the columns are and whatever the
remainder is, and are undefined for the same ones. -/
def Agrees (a b : Calculation) : Prop :=
  ∀ columns rem, a.value? columns rem = b.value? columns rem

namespace Agrees

variable {a b c d l r x : Calculation} {op : ArithmeticOp}

theorem refl (a : Calculation) : Agrees a a := fun _ _ => rfl

theorem trans (h : Agrees a b) (h' : Agrees b c) : Agrees a c :=
  fun columns rem => (h columns rem).trans (h' columns rem)

theorem minus (h : Agrees a b) :
  Agrees (.minus a) (.minus b)
  := by
  intro columns rem
  rw [value?_minus, value?_minus, h]

theorem binary (op : ArithmeticOp) (h : Agrees a b) (h' : Agrees c d) :
  Agrees (.binary op a c) (.binary op b d)
  := by
  intro columns rem
  rw [value?_binary, value?_binary, h, h']

theorem signed (h : Agrees a b) (n : Nat) :
  Agrees (signed n a) (signed n b)
  := by
  induction n generalizing a b with
  | zero => apply h
  | succ n ih => apply ih h.minus

theorem joined (h : Agrees a b) (p : Option (Calculation × ArithmeticOp)) :
  Agrees (joined p a) (joined p b)
  := by
  cases p with
  | none => apply h
  | some p => apply (refl p.1).binary p.2 h

/-- A sign can be moved to the front of a product. -/
theorem minus_binary (hop : op = .multiply ∨ op = .divide) :
  Agrees (.binary op (.minus l) r) (.minus (.binary op l r))
  := by
  intro columns rem
  simp only [value?_minus, value?_binary]
  cases l.value? columns rem with
  | none => rfl
  | some x =>
    cases r.value? columns rem with
    | none => rfl
    | some y =>
      rcases hop with rfl | rfl
      · simp [ArithmeticOp.result?]
      · by_cases hy : y = 0
        · simp [ArithmeticOp.result?, hy]
        · simp [ArithmeticOp.result?, hy, neg_div]

/-- A factor in front can be multiplied first. -/
theorem multiply_binary (hop : op = .multiply ∨ op = .divide) :
  Agrees (.binary op (.binary .multiply x l) r) (.binary .multiply x (.binary op l r))
  := by
  intro columns rem
  simp only [value?_binary]
  cases x.value? columns rem with
  | none => rfl
  | some x =>
    cases l.value? columns rem with
    | none => rfl
    | some y =>
      cases r.value? columns rem with
      | none => rfl
      | some z =>
        rcases hop with rfl | rfl
        · simp [ArithmeticOp.result?, mul_assoc]
        · by_cases hz : z = 0
          · simp [ArithmeticOp.result?, hz]
          · simp [ArithmeticOp.result?, hz, mul_div_assoc]

/-- A part in front can be added first. -/
theorem add_binary (hop : op.isTight = false) :
  Agrees (.binary op (.binary .add x l) r) (.binary .add x (.binary op l r))
  := by
  intro columns rem
  simp only [value?_binary]
  cases x.value? columns rem with
  | none => rfl
  | some x =>
    cases l.value? columns rem with
    | none => rfl
    | some y =>
      cases r.value? columns rem with
      | none => rfl
      | some z =>
        cases op with
        | add => simp [ArithmeticOp.result?, add_assoc]
        | subtract => simp [ArithmeticOp.result?, add_sub_assoc]
        | _ => cases hop

theorem signed_binary (hop : op = .multiply ∨ op = .divide) (n : Nat) (l r : Calculation) :
  Agrees (.binary op (Calculation.signed n l) r) (Calculation.signed n (.binary op l r))
  := by
  induction n generalizing l with
  | zero => apply refl
  | succ n ih =>
    apply (ih (.minus l)).trans
    apply (minus_binary hop).signed n

theorem product_binary (hop : op = .multiply ∨ op = .divide)
    {p : Option (Calculation × ArithmeticOp)} (hp : ∀ q ∈ p, q.2 = .multiply) :
  Agrees (.binary op (Calculation.joined p l) r) (Calculation.joined p (.binary op l r))
  := by
  cases p with
  | none => apply refl
  | some p =>
    obtain ⟨x, op'⟩ := p
    obtain rfl : op' = .multiply := hp _ rfl
    apply multiply_binary hop

theorem sum_binary (hop : op.isTight = false) {p : Option (Calculation × ArithmeticOp)}
    (hp : ∀ q ∈ p, q.2 = .add) :
  Agrees (.binary op (Calculation.joined p l) r) (Calculation.joined p (.binary op l r))
  := by
  cases p with
  | none => apply refl
  | some p =>
    obtain ⟨x, op'⟩ := p
    obtain rfl : op' = .add := hp _ rfl
    apply add_binary hop

end Agrees

/-- A calculation of the given shape needs no parentheses where an operand is waited for. -/
def Frame.Admits (f : Frame) : Shape → Prop
  | .single => True
  | .product => ∀ p ∈ f.product, p.2 = .multiply
  | .remainder => f.product = none ∧ f.signs = 0
  | .sum => f.product = none ∧ f.signs = 0 ∧ ∀ p ∈ f.sum, p.2 = .add

/-- A calculation without parentheses is read as if it had them, up to the values. If it is no sum,
what waits for the sum goes on waiting. -/
structure KeepsIn (f : Frame) (a : Calculation) : Prop where
  whole : Agrees (a.reading f).whole (f.fill a).whole
  sum : a.shape ≠ .sum → (a.reading f).sum = f.sum
  last : a.shape ≠ .sum → Agrees (a.reading f).last (f.fill a).last

theorem keepsIn_of_part {f : Frame} {a : Calculation} (hsum : (a.reading f).sum = f.sum)
    (hlast : Agrees (a.reading f).last (f.fill a).last) :
  KeepsIn f a
  := by
  constructor
  · rw [Reading.whole, hsum]
    apply hlast.joined
  · intro _
    apply hsum
  · intro _
    apply hlast

theorem Frame.Admits.of_sum {f : Frame} (h : f.Admits .sum) (s : Shape) :
  f.Admits s
  := by
  cases s with
  | single => trivial
  | product =>
    rw [Admits, h.1]
    rintro p ⟨⟩
  | remainder => apply And.intro h.1 h.2.1
  | sum => apply h

theorem Frame.admits_empty (s : Shape) :
  Frame.Admits {} s
  := by
  apply Frame.Admits.of_sum
  use rfl, rfl
  rintro p ⟨⟩

/-- Where a calculation needs no parentheses, its left operand needs none. -/
theorem Frame.Admits.left {f : Frame} {op : ArithmeticOp} {l r : Calculation}
    (h : f.Admits (shape (.binary op l r))) (hleft : op.takesLeft l.shape = true) :
  f.Admits l.shape
  := by
  cases htight : op.isTight with
  | false =>
    simp only [shape, htight, Bool.not_false, if_true] at h
    apply h.of_sum
  | true =>
    simp only [shape, htight, Bool.not_true, Bool.false_eq_true, if_false] at h
    cases hl : l.shape with
    | single => trivial
    | product =>
      by_cases hop : op = .remainder
      · simp only [hop, decide_true, Bool.true_or, if_true] at h
        rw [Admits, h.1]
        rintro p ⟨⟩
      · simpa [hop, hl] using h
    | remainder => simpa [hl] using h
    | sum => simp [ArithmeticOp.takesLeft, htight, hl] at hleft

/-- Where a right operand needs no parentheses. -/
theorem Reading.admits_frame (r : Reading) {op : ArithmeticOp} {s : Shape}
    (h : op.takesRight s = true) :
  (r.frame op).Admits s
  := by
  cases op with
  | add =>
    apply Frame.Admits.of_sum
    use rfl, rfl
    rintro p ⟨⟩
    rfl
  | subtract =>
    cases s with
    | single => trivial
    | product => rintro p ⟨⟩
    | remainder => apply And.intro rfl rfl
    | sum => cases h
  | multiply =>
    cases s with
    | single => trivial
    | product =>
      rintro p ⟨⟩
      rfl
    | _ => cases h
  | divide =>
    cases s with
    | single => trivial
    | _ => cases h
  | remainder =>
    cases s with
    | single => trivial
    | _ => cases h

/-- Parentheses around a sum are needed behind an operation that binds more than sums do. -/
theorem takesRight_sum {op : ArithmeticOp} (hop : op.isTight = true) :
  op.takesRight .sum = false
  := by
  cases op with
  | add => cases hop
  | subtract => cases hop
  | _ => rfl

section

variable {f : Frame} {op : ArithmeticOp} {a l r : Calculation}

theorem keepsIn_minus_of_isSigned (hsigned : a.isSigned = true) (ha : Agrees a.regrouped a) :
  KeepsIn f (.minus a)
  := by
  apply keepsIn_of_part
  · rw [reading, if_pos hsigned]
    rfl
  · rw [reading, if_pos hsigned]
    apply (ha.minus.signed _).joined

theorem keepsIn_minus (hsigned : a.isSigned = false) (hsum : a.shape ≠ .sum)
    (ha : KeepsIn f.sign a) :
  KeepsIn f (.minus a)
  := by
  have hreading : reading (.minus a) f = a.reading f.sign := by
    rw [reading, if_neg (Bool.eq_false_iff.mp hsigned)]
  apply keepsIn_of_part
  · rw [hreading]
    apply ha.sum hsum
  · rw [hreading]
    apply ha.last hsum

/-- A factor or divisor can be moved out of a product that waits for one, and a sign out of it. -/
theorem agrees_binary_fill (htight : op.isTight = true) (hf : f.Admits (shape (.binary op l r))) :
  Agrees (.binary op (f.fill l).last r) (f.fill (.binary op l r)).last
  := by
  simp only [shape, htight, Bool.not_true, Bool.false_eq_true, if_false] at hf
  split at hf
  next =>
    rw [Frame.fill, Frame.fill, hf.1, hf.2]
    apply Agrees.refl
  next hshape =>
    have hop : op = .multiply ∨ op = .divide := by
      cases op with
      | multiply => apply Or.inl rfl
      | divide => apply Or.inr rfl
      | remainder => simp at hshape
      | _ => cases htight
    apply (Agrees.product_binary hop hf).trans
    apply (Agrees.signed_binary hop f.signs l r).joined

theorem keepsIn_tight (htight : op.isTight = true) (hf : f.Admits (shape (.binary op l r)))
    (hlsum : l.shape ≠ .sum) (hrsum : r.shape ≠ .sum) (hl : KeepsIn f l)
    (hr : KeepsIn ((l.reading f).frame op) r) :
  KeepsIn f (.binary op l r)
  := by
  have hsum := hr.sum hrsum
  have hlast := hr.last hrsum
  rw [Reading.frame, if_pos htight] at hsum hlast
  apply keepsIn_of_part
  · rw [reading, Reading.frame, if_pos htight, hsum]
    apply hl.sum hlsum
  · rw [reading, Reading.frame, if_pos htight]
    apply hlast.trans
    apply ((hl.last hlsum).binary op (.refl r)).trans
    apply agrees_binary_fill htight hf

theorem keepsIn_loose (hloose : op.isTight = false) (hf : f.Admits .sum) (hl : KeepsIn f l)
    (hr : KeepsIn ((l.reading f).frame op) r) :
  KeepsIn f (.binary op l r)
  := by
  have hshape : shape (.binary op l r) = .sum := by
    rw [shape, hloose]
    rfl
  obtain ⟨hproduct, hsigns, hadd⟩ := hf
  have hfill (a : Calculation) : (f.fill a).whole = joined f.sum a := by
    rw [Frame.fill, hproduct, hsigns]
    rfl
  have hwhole := hr.whole
  rw [Reading.frame, if_neg (Bool.eq_false_iff.mp hloose)] at hwhole
  constructor
  · rw [reading, Reading.frame, if_neg (Bool.eq_false_iff.mp hloose)]
    apply hwhole.trans
    apply (hl.whole.binary op (.refl r)).trans
    rw [hfill, hfill]
    apply Agrees.sum_binary hloose hadd
  · intro hne
    cases hne hshape
  · intro hne
    cases hne hshape

end

/-- A calculation in which each operand can do without parentheses keeps its value without them,
wherever it needs none itself. -/
theorem keepsIn_of_keepsGrouping {a : Calculation} (h : a.keepsGrouping = true) {f : Frame}
    (hf : f.Admits a.shape) :
  KeepsIn f a
  := by
  -- What stands before the operands differs, so the frame has to vary in the induction.
  induction a generalizing f with
  | column name => apply keepsIn_of_part rfl (.refl _)
  | number digits => apply keepsIn_of_part rfl (.refl _)
  | minus a ih =>
    rw [keepsGrouping, Bool.and_eq_true] at h
    cases hsigned : a.isSigned with
    -- What starts with a sign is put in parentheses, so it is read on its own.
    | true => apply keepsIn_minus_of_isSigned hsigned (ih h.1 (Frame.admits_empty _)).whole
    | false =>
      rw [shape, hsigned] at hf
      have hshape : a.shape = .single ∨ a.shape = .product := by simpa [hsigned] using h.2
      have hadmits : f.sign.Admits a.shape := by
        rcases hshape with hs | hs
        · rw [hs]
          trivial
        · rw [hs] at hf ⊢
          apply hf
      apply keepsIn_minus hsigned _ (ih h.1 hadmits)
      rcases hshape with hs | hs <;> simp [hs]
  | binary op l r ihleft ihright =>
    simp only [keepsGrouping, Bool.and_eq_true] at h
    obtain ⟨⟨⟨hl, hr⟩, hleft⟩, hright⟩ := h
    -- The right operand is read behind what the left one was read as.
    have hkeepsl := ihleft hl (hf.left hleft)
    have hkeepsr := ihright hr ((l.reading f).admits_frame hright)
    cases htight : op.isTight with
    | true =>
      apply keepsIn_tight htight hf _ _ hkeepsl hkeepsr
      · simpa [ArithmeticOp.takesLeft, htight] using hleft
      · intro hs
        rw [hs, takesRight_sum htight] at hright
        cases hright
    | false =>
      rw [shape, htight] at hf
      apply keepsIn_loose htight hf hkeepsl hkeepsr

theorem agrees_regrouped {a : Calculation} (h : a.keepsGrouping = true) :
  Agrees a.regrouped a
  := (keepsIn_of_keepsGrouping h (Frame.admits_empty _)).whole

end Cql.Calculation

end CqlGateway

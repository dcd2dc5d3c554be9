import CqlGateway.Number.Integer64

/-!
# Finite binary floating-point numbers

A number is a whole significand below `2 ^ 53` times a power of two no smaller than
`2 ^ (-1074)`. Decimal text is rounded to the nearest such number, a tie going to the even
significand. In the other direction a number is written with the fewest decimal digits that read
back as the same number and, among those, the ones nearest to it. Everything is computed with
whole numbers.
-/

namespace CqlGateway

/-- The number `± significand * 2 ^ exponent`. -/
structure Binary64 where
  negative : Bool
  significand : Nat
  exponent : Int
  deriving DecidableEq, Repr

namespace Binary64

/-- The bound of the significands, `2 ^ 53`. -/
def significandBound : Nat := 9007199254740992

/-- The least significand that takes all its digits, `2 ^ 52`. -/
def significandHalf : Nat := 4503599627370496

/-- The quotient of two numbers rounded to the nearest whole number, a tie to the even one. -/
def roundQuotient (num den : Nat) : Nat :=
  let q := num / den
  let r := num % den
  if den < 2 * r ∨ (2 * r = den ∧ q % 2 = 1) then q + 1 else q

/-- Multiply a fraction by `2 ^ (-k)`. -/
def scaleDown (num den : Nat) (k : Int) : Nat × Nat :=
  if 0 ≤ k then (num, den * Nat.pow 2 k.toNat) else (num * Nat.pow 2 (-k).toNat, den)

/-- The number nearest to a fraction, unless the fraction is too large for every number. -/
def ofFraction? (negative : Bool) (num den : Nat) : Option Binary64 :=
  if num = 0 then some ⟨negative, 0, 0⟩
  else
    let low : Int := (num.log2 : Int) - den.log2 - 53
    let (n, d) := scaleDown num den low
    let k := max (if significandBound ≤ n / d then low + 1 else low) (-1074)
    let (n, d) := scaleDown num den k
    let q := roundQuotient n d
    let (q, k) := if q = significandBound then (significandHalf, k + 1) else (q, k)
    if 971 < k then none else some ⟨negative, q, k⟩

/-- The number nearest to `digits * 10 ^ scale`, unless that is too large. Scales far outside the
range of the numbers are decided without computing the power. -/
def ofDecimal? (negative : Bool) (digits : Nat) (scale : Int) : Option Binary64 :=
  if digits = 0 then some ⟨negative, 0, 0⟩
  else
    let top : Int := (Nat.toDigits 10 digits).length + scale
    if 400 < top then none
    else if top < -400 then some ⟨negative, 0, 0⟩
    else if 0 ≤ scale then ofFraction? negative (digits * Nat.pow 10 scale.toNat) 1
    else ofFraction? negative digits (Nat.pow 10 (-scale).toNat)

def fraction (x : Binary64) : Nat × Nat :=
  if 0 ≤ x.exponent then (x.significand * Nat.pow 2 x.exponent.toNat, 1)
  else (x.significand, Nat.pow 2 (-x.exponent).toNat)

/-- The whole number a floating-point number equals, if it is whole and fits 64 bits with sign. -/
def toInt64? (x : Binary64) : Option Int :=
  let (num, den) := x.fraction
  if num % den = 0 then
    let n : Int := if x.negative then -(num / den : Nat) else (num / den : Nat)
    if -(Integer64.bound : Int) ≤ n ∧ n < Integer64.bound then some n else none
  else
    none

/-! ### Shortest decimal form -/

/-- The decimal number `digits * 10 ^ scale`, without a final zero digit unless it is zero. -/
structure Decimal where
  digits : Nat
  scale : Int

/-- Compare `a / b` with `digits * 10 ^ scale`. -/
def compareDecimal (a b : Nat) (digits : Nat) (scale : Int) : Ordering :=
  if 0 ≤ scale then compare a (b * digits * Nat.pow 10 scale.toNat)
  else compare (a * Nat.pow 10 (-scale).toNat) (b * digits)

/-- The ends of the interval of reals that round to `x`, as fractions over a common denominator,
and whether the ends themselves round to `x`. -/
def interval (x : Binary64) : (Nat × Nat × Nat) × Bool :=
  let m := x.significand
  let below := if m = significandHalf ∧ -1074 < x.exponent then 4 * m - 1 else 4 * m - 2
  let above := 4 * m + 2
  let bounds :=
    if 2 ≤ x.exponent then
      let p := Nat.pow 2 (x.exponent - 2).toNat
      (below * p, above * p, 1)
    else
      (below, above, Nat.pow 2 (2 - x.exponent).toNat)
  (bounds, m % 2 = 0)

/-- Whether a decimal number rounds to `x`. -/
def roundsTo (x : Binary64) (digits : Nat) (scale : Int) : Bool :=
  let ((low, high, den), closed) := x.interval
  match compareDecimal low den digits scale, compareDecimal high den digits scale with
  | .lt, .gt => true
  | .eq, _ => closed
  | _, .eq => closed
  | _, _ => false

/-- The decimal exponent of the leading digit of a positive fraction. -/
def leadingExponent (num den : Nat) : Int :=
  let e : Int := ((Nat.toDigits 10 num).length : Int) - (Nat.toDigits 10 den).length
  match compareDecimal num den 1 e with
  | .lt => e - 1
  | _ => e

/-- Of the neighbours of a fraction on the grid of multiples of `10 ^ scale`, the nearest one
that rounds to `x`. -/
def gridHit? (x : Binary64) (num den : Nat) (scale : Int) : Option Nat :=
  let (n, d) :=
    if 0 ≤ scale then (num, den * Nat.pow 10 scale.toNat)
    else (num * Nat.pow 10 (-scale).toNat, den)
  let low := n / d
  let high := low + 1
  let nearLow := 2 * (n % d) ≤ d
  match x.roundsTo low scale && 0 < low, x.roundsTo high scale with
  | true, true => some (if nearLow then low else high)
  | true, false => some low
  | false, true => some high
  | false, false => none

/-- Try one digit, then two, and so on, with at most `fuel` attempts. Seventeen digits always
suffice. -/
def shortestFrom (x : Binary64) (num den : Nat) (lead : Int) : (fuel count : Nat) → Decimal
  | 0, count => ⟨num / den, count⟩
  | fuel + 1, count =>
    let scale := lead - count
    match x.gridHit? num den scale with
    | some digits => ⟨digits, scale⟩
    | none => shortestFrom x num den lead fuel (count + 1)

/-- The shortest decimal number that rounds to `x`, and the nearest of those. -/
def shortest (x : Binary64) : Decimal :=
  if x.significand = 0 then ⟨0, 0⟩
  else
    let (num, den) := x.fraction
    let lead := leadingExponent num den
    let d := shortestFrom x num den lead 18 0
    if d.digits % 10 = 0 then ⟨d.digits / 10, d.scale + 1⟩ else d

/-! ### Written forms -/

/-- Digits with a point before the last `places` of them. -/
def positional (digits : List Char) (scale : Int) : List Char :=
  if 0 ≤ scale then digits ++ List.replicate scale.toNat '0'
  else
    let places := (-scale).toNat
    let padded := List.replicate (places + 1 - digits.length) '0' ++ digits
    padded.take (padded.length - places) ++ '.' :: padded.drop (padded.length - places)

/-- One digit, a point, the other digits, and a signed exponent of at least `width` digits. -/
def scientific (digits : List Char) (exponent : Int) (width : Nat) : List Char :=
  let power := (toString exponent.natAbs).toList
  digits.take 1 ++ (if digits.length ≤ 1 then [] else '.' :: digits.drop 1)
    ++ 'e' :: (if exponent < 0 then '-' else '+')
    :: (List.replicate (width - power.length) '0' ++ power)

/-- How numbers are written: outside the given range of leading exponents the exponent form is
used, with at least the given number of exponent digits. A format without a range never uses the
exponent form. -/
structure Format where
  positionalRange : Option (Int × Int)
  exponentWidth : Nat

/-- Numbers in statements: always positional. -/
def Format.plain : Format := ⟨none, 1⟩

/-- Numbers in documents: positional from `10 ^ (-6)` up to, but not including, `10 ^ 21`. -/
def Format.document : Format := ⟨some (-6, 21), 1⟩

/-- Numbers on display: positional from `10 ^ (-4)` up to, but not including, `10 ^ 6`. -/
def Format.display : Format := ⟨some (-4, 6), 2⟩

def render (format : Format) (x : Binary64) : String :=
  let d := x.shortest
  let digits := (toString d.digits).toList
  let lead : Int := d.scale + digits.length - 1
  let body :=
    match format.positionalRange with
    | none => positional digits d.scale
    | some (low, high) =>
      if x.significand ≠ 0 ∧ (lead < low ∨ high ≤ lead) then
        scientific digits lead format.exponentWidth
      else
        positional digits d.scale
  String.ofList (if x.negative then '-' :: body else body)

end Binary64

end CqlGateway

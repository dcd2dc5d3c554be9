import CqlGateway.Number.Binary64
import CqlGateway.Number.Digits

/-!
# Decimal text of floating-point numbers

A decimal is an optional sign, digits with at most one point among them, and an optional power of
ten. It is read as the floating-point number nearest to it.
-/

namespace CqlGateway.Binary64

/-- The power of ten that an exponent part gives, `none` if it is malformed. -/
def readExponent? : List Char → Option Int
  | [] => some 0
  | e :: cs =>
    if e = 'e' || e = 'E' then
      let (negative, digits) :=
        match cs with
        | '-' :: ds => (true, ds)
        | '+' :: ds => (false, ds)
        | ds => (false, ds)
      if digits.isEmpty || !digits.all Char.isDigit then none
      else
        let n := min (Digits.value digits) 100000
        some (if negative then -n else n)
    else
      none

/-- The number nearest to the decimal that characters without a sign spell. -/
def readMagnitude? (negative : Bool) (cs : List Char) : Option Binary64 :=
  let whole := cs.takeWhile Char.isDigit
  let rest := cs.dropWhile Char.isDigit
  let (fraction, rest) :=
    match rest with
    | '.' :: ds => (ds.takeWhile Char.isDigit, ds.dropWhile Char.isDigit)
    | ds => ([], ds)
  if whole.isEmpty && fraction.isEmpty then none
  else do
    let power ← readExponent? rest
    ofDecimal? negative (Digits.value (whole ++ fraction)) (power - fraction.length)

/-- The number nearest to the decimal that a text spells, if it is one and not too large. -/
def read? (s : String) : Option Binary64 :=
  match s.toList with
  | '-' :: cs => readMagnitude? true cs
  | '+' :: cs => readMagnitude? false cs
  | cs => readMagnitude? false cs

end CqlGateway.Binary64

/-!
# Decimal text of integers

An integer is an optional sign and decimal digits. Reading stops at the first fault: a character
that is no digit, or a magnitude that no 64-bit word holds. A magnitude that fits a word but not a
word with sign is out of range as well.
-/

namespace CqlGateway.Integer64

/-- The number of integers that are not negative. -/
def bound : Nat := 9223372036854775808

/-- The number of words. -/
def wordBound : Nat := 18446744073709551616

inductive Fault where
  | syntaxError
  | outOfRange
  deriving DecidableEq, Repr

def Fault.message : Fault → String
  | .syntaxError => "invalid syntax"
  | .outOfRange => "value out of range"

/-- The magnitude that digits spell, given the magnitude of the digits before them. -/
def magnitudeFrom (n : Nat) : List Char → Except Fault Nat
  | [] => .ok n
  | c :: cs =>
    if c.isDigit then
      let m := n * 10 + (c.toNat - 48)
      if m < wordBound then magnitudeFrom m cs else .error .outOfRange
    else
      .error .syntaxError

/-- The magnitude that a nonempty run of digits spells. -/
def magnitude (cs : List Char) : Except Fault Nat :=
  if cs.isEmpty then .error .syntaxError else magnitudeFrom 0 cs

def signed (negative : Bool) (digits : List Char) : Except Fault Int :=
  match magnitude digits with
  | .error e => .error e
  | .ok n =>
    if negative then
      if n ≤ bound then .ok (-n) else .error .outOfRange
    else
      if n < bound then .ok n else .error .outOfRange

def readChars : List Char → Except Fault Int
  | '-' :: cs => signed true cs
  | '+' :: cs => signed false cs
  | cs => signed false cs

def read (s : String) : Except Fault Int :=
  readChars s.toList

def read? (s : String) : Option Int :=
  (read s).toOption

end CqlGateway.Integer64

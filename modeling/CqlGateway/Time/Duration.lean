import CqlGateway.Number.Binary64
import CqlGateway.Number.Digits
import CqlGateway.Text.Quoted
import CqlGateway.Text.Utf8

/-!
# Durations as text

A duration is a number of nanoseconds. Its text is a sequence of decimal numbers with units, such
as `1h30m` or `1.5s`, with an optional sign; zero needs no unit. A duration has to fit a word of 64
bits with sign.
-/

namespace CqlGateway.Duration

def unit? : List Char → Option Nat
  | ['n', 's'] => some 1
  | ['u', 's'] | ['µ', 's'] | ['μ', 's'] => some 1000
  | ['m', 's'] => some 1000000
  | ['s'] => some 1000000000
  | ['m'] => some 60000000000
  | ['h'] => some 3600000000000
  | _ => none

inductive Fault where
  | invalid
  | missingUnit
  | unknownUnit (unit : List Char)
  deriving DecidableEq, Repr

/-- A character as it stands between quotes: plain characters as they are, all others by their
bytes. -/
def quotedChar (c : Char) : List Char :=
  if 128 ≤ c.toNat || c.toNat < 32 then
    (String.utf8EncodeChar c).flatMap fun b => '\\' :: 'x' :: Text.hex 2 b.toNat
  else if c = '"' || c = '\\' then ['\\', c]
  else [c]

def quoted (cs : List Char) : String :=
  String.ofList ('"' :: cs.flatMap quotedChar ++ ['"'])

def Fault.message (text : List Char) : Fault → String
  | .invalid => "time: invalid duration " ++ quoted text
  | .missingUnit => "time: missing unit in duration " ++ quoted text
  | .unknownUnit unit =>
    "time: unknown unit " ++ quoted unit ++ " in duration " ++ quoted text

/-- The largest magnitude of a duration. -/
def bound : Nat := Integer64.bound

/-- The digits behind a point and the power of ten that they are divided by. Digits that no word
can take any more are dropped. -/
def fractionFrom (value scale : Nat) : List Char → Nat × Nat
  | [] => (value, scale)
  | c :: cs =>
    let next := value * 10 + (c.toNat - 48)
    if value ≤ (bound - 1) / 10 && next ≤ bound then fractionFrom next (scale * 10) cs
    else (value, scale)

/-- The nearest floating-point number to a fraction, as a fraction. -/
def nearest (num den : Nat) : Nat × Nat :=
  ((Binary64.ofFraction? false num den).map Binary64.fraction).getD (num, den)

/-- The nanoseconds of the part of a unit behind a point. The share of a unit and the product are
both rounded to floating-point numbers, and the rest is cut off. -/
def shareOf (unit : Nat) (value scale : Nat) : Nat :=
  let share := nearest unit scale
  let count := nearest value 1
  let product := nearest (count.1 * share.1) (count.2 * share.2)
  product.1 / product.2

/-- Whether a character can stand in a number. -/
def isNumberChar (c : Char) : Bool :=
  c = '.' || c.isDigit

/-- The parts of one term: the digits before a point, those behind it if there is a point, the
unit, and what follows. -/
def splitTerm (cs : List Char) : List Char × List Char × List Char × List Char :=
  let whole := cs.takeWhile Char.isDigit
  let rest := cs.dropWhile Char.isDigit
  let (places, rest) :=
    match rest with
    | '.' :: more => (more.takeWhile Char.isDigit, more.dropWhile Char.isDigit)
    | _ => ([], rest)
  (whole, places, rest.takeWhile (!isNumberChar ·), rest.dropWhile (!isNumberChar ·))

def termValue (whole places unit : List Char) : Except Fault Nat :=
  if whole.isEmpty && places.isEmpty then .error .invalid
  else if bound < Digits.value whole then .error .invalid
  else if unit.isEmpty then .error .missingUnit
  else
    match unit? unit with
    | none => .error (.unknownUnit unit)
    | some u =>
      if bound / u < Digits.value whole then .error .invalid
      else
        let (value, scale) := fractionFrom 0 1 places
        let total := Digits.value whole * u + shareOf u value scale
        if bound < total then .error .invalid else .ok total

/-- The nanoseconds of a sequence of terms, given those before it. A term is at least one character
long, so there are at most as many as the fuel that is given. -/
def terms (fuel : Nat) (sum : Nat) (cs : List Char) : Except Fault Nat :=
  match fuel, cs with
  | _, [] => .ok sum
  | 0, _ => .error .invalid
  | fuel + 1, cs => do
    let (whole, places, unit, rest) := splitTerm cs
    let value ← termValue whole places unit
    if bound < sum + value then throw .invalid
    terms fuel (sum + value) rest

/-- The duration that characters without sign give. -/
def magnitude (cs : List Char) : Except Fault Nat :=
  if cs = ['0'] then .ok 0
  else if cs.isEmpty then .error .invalid
  else terms cs.length 0 cs

def readChars (cs : List Char) : Except Fault Int := do
  match cs with
  | '-' :: rest => return -(← magnitude rest)
  | '+' :: rest => positive (← magnitude rest)
  | rest => positive (← magnitude rest)
where
  positive (n : Nat) : Except Fault Int :=
    if n < bound then .ok n else .error .invalid

/-- The duration that a text gives, or what is said of it. -/
def read (s : String) : Except String Int :=
  match readChars s.toList with
  | .ok d => .ok d
  | .error fault => .error (fault.message s.toList)

end CqlGateway.Duration

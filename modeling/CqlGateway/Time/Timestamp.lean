import CqlGateway.Number.Digits

/-!
# Points in time as text

A point in time is a number of seconds since the start of 1970. Its text gives the date and the
time of day in universal time. Years have four digits at least; only years of exactly four digits
are read.
-/

namespace CqlGateway.Timestamp

/-- A day of the calendar. -/
structure Date where
  year : Int
  month : Nat
  day : Nat
  deriving DecidableEq, Repr

/-- The start of the first year: the point in time that stands for none. -/
def absent : Int := -62135596800

/-- The day of the calendar, given the number of days since the start of 1970. Years are counted
from the first of March in eras of four hundred years. -/
def dateOfDays (days : Int) : Date :=
  let z := days + 719468
  let era := z / 146097
  let ofEra := (z % 146097).toNat
  let yearOfEra := (ofEra - ofEra / 1460 + ofEra / 36524 - ofEra / 146096) / 365
  let ofYear := ofEra - (365 * yearOfEra + yearOfEra / 4 - yearOfEra / 100)
  let shifted := (5 * ofYear + 2) / 153
  let day := ofYear - (153 * shifted + 2) / 5 + 1
  let month := if shifted < 10 then shifted + 3 else shifted - 9
  ⟨yearOfEra + era * 400 + (if month ≤ 2 then 1 else 0), month, day⟩

/-- The number of days since the start of 1970. -/
def daysOfDate (d : Date) : Int :=
  let year := if d.month ≤ 2 then d.year - 1 else d.year
  let era := year / 400
  let yearOfEra := (year % 400).toNat
  let shifted := if d.month > 2 then d.month - 3 else d.month + 9
  let ofYear := (153 * shifted + 2) / 5 + d.day - 1
  let ofEra := yearOfEra * 365 + yearOfEra / 4 - yearOfEra / 100 + ofYear
  era * 146097 + ofEra - 719468

/-- The digits of a number, at least as many as given. -/
def padded (width n : Nat) : List Char :=
  let digits := (toString n).toList
  List.replicate (width - digits.length) '0' ++ digits

def yearText (year : Int) : List Char :=
  if year < 0 then '-' :: padded 4 year.natAbs else padded 4 year.natAbs

def text (seconds : Int) : String :=
  let date := dateOfDays (seconds / 86400)
  let ofDay := (seconds % 86400).toNat
  String.ofList (yearText date.year ++ '-' :: padded 2 date.month ++ '-' :: padded 2 date.day
    ++ 'T' :: padded 2 (ofDay / 3600) ++ ':' :: padded 2 (ofDay / 60 % 60)
    ++ ':' :: padded 2 (ofDay % 60) ++ ['Z'])

def isLeap (year : Int) : Bool :=
  year % 4 = 0 && (year % 100 ≠ 0 || year % 400 = 0)

def daysOfMonth (year : Int) (month : Nat) : Nat :=
  if month = 2 then (if isLeap year then 29 else 28)
  else if month = 4 || month = 6 || month = 9 || month = 11 then 30
  else 31

def number? (cs : List Char) : Option Nat :=
  if !cs.isEmpty && cs.all Char.isDigit then some (Digits.value cs) else none

def read? (s : String) : Option Int :=
  match s.toList with
  | [y1, y2, y3, y4, '-', m1, m2, '-', d1, d2, 'T', h1, h2, ':', n1, n2, ':', s1, s2, 'Z'] => do
    let year ← number? [y1, y2, y3, y4]
    let month ← number? [m1, m2]
    let day ← number? [d1, d2]
    let hour ← number? [h1, h2]
    let minute ← number? [n1, n2]
    let second ← number? [s1, s2]
    if 1 ≤ month && month ≤ 12 && 1 ≤ day && day ≤ daysOfMonth year month && hour < 24
        && minute < 60 && second < 60 then
      some (daysOfDate ⟨year, month, day⟩ * 86400 + hour * 3600 + minute * 60 + second)
    else
      none
  | _ => none

end CqlGateway.Timestamp

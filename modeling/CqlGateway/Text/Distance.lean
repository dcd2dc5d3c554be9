/-!
# The distance of words

The distance of two words is the least number of letters that have to be inserted, removed or
replaced to get from one to the other.
-/

namespace CqlGateway.Text

/-- The distances of a word with a further letter from all beginnings of the second word but the
empty one. The first number is the distance from the beginning before, the list holds the
distances of the word without that letter, and the corner is the one before that list. -/
def distanceRow {α : Type} [DecidableEq α] (a : α) :
    (before corner : Nat) → List α → List Nat → List Nat
  | before, corner, b :: bs, d :: ds =>
    let here := if a = b then corner else min (min before d) corner + 1
    here :: distanceRow a here d bs ds
  | _, _, _, _ => []

/-- The distances of a word from the empty word and from all other beginnings of the second one,
given those of a beginning of the word. -/
def distances {α : Type} [DecidableEq α] (word : List α) : List α → List Nat → List Nat
  | [], row => row
  | a :: rest, row =>
    match row with
    | [] => []
    | corner :: ds => distances word rest ((corner + 1) :: distanceRow a (corner + 1) corner word ds)

/-- The distance of two words. -/
def distance {α : Type} [DecidableEq α] (a b : List α) : Nat :=
  (distances b a (List.range (b.length + 1))).getLast?.getD 0

end CqlGateway.Text

import CqlGateway.Text.WidthTable

/-!
# The width of a text

The width of a text on a terminal is the sum of the widths of its characters. The sequences that
set colours and clear lines show nothing and do not count.
-/

namespace CqlGateway.Text

def inIntervals (intervals : List (Nat × Nat)) (n : Nat) : Bool :=
  intervals.any fun (low, high) => low ≤ n && n ≤ high

/-- The number of cells that a character takes. -/
def charWidth (c : Char) : Nat :=
  if inIntervals zeroWidthIntervals c.toNat then 0
  else if inIntervals doubleWidthIntervals c.toNat then 2
  else 1

/-- The rest of a control sequence within its parameters, after its end: numbers of at most three
digits with semicolons between them, and a final letter. The flag says whether a number is due. -/
def afterParameters? : (digits : Nat) → (due : Bool) → List Char → Option (List Char)
  | _, _, [] => none
  | digits, due, c :: cs =>
    if c.isDigit then if digits < 3 then afterParameters? (digits + 1) false cs else none
    else if due then none
    else if c = ';' then if digits = 0 then none else afterParameters? 0 true cs
    else if c = 'm' || c = '|' || c = 'K' then some cs
    else none

/-- What follows a control sequence at the front of a text. -/
def afterControl? : List Char → Option (List Char)
  | '\x1b' :: '[' :: cs => afterParameters? 0 false cs
  | _ => none

/-- What follows the parameters of a control sequence is a part of them. -/
theorem length_afterParameters? {digits : Nat} {due : Bool} {cs rest : List Char}
    (h : afterParameters? digits due cs = some rest) : rest.length < cs.length := by
  induction cs generalizing digits due with
  | nil => simp [afterParameters?] at h
  | cons c cs ih =>
    simp only [afterParameters?] at h
    split at h
    · split at h
      · exact Nat.lt_succ_of_lt (ih h)
      · cases h
    · split at h
      · cases h
      · split at h
        · split at h
          · cases h
          · exact Nat.lt_succ_of_lt (ih h)
        · split at h
          · cases h
            simp
          · cases h

/-- What follows a control sequence is shorter than the text. -/
theorem length_afterControl? {cs rest : List Char} (h : afterControl? cs = some rest) :
    rest.length < cs.length := by
  unfold afterControl? at h
  split at h
  · have := length_afterParameters? h
    simp only [List.length_cons]
    omega
  · cases h

/-- The number of cells that characters take, control sequences aside. -/
def widthOf (cs : List Char) : Nat :=
  match _h : afterControl? cs with
  | some rest => widthOf rest
  | none =>
    match cs with
    | [] => 0
    | c :: cs => charWidth c + widthOf cs
termination_by cs.length
decreasing_by
  · exact length_afterControl? _h
  · simp

def width (s : String) : Nat :=
  widthOf s.toList

end CqlGateway.Text

import CqlGateway.Text.CaseTable

/-!
# Letter case

Case maps send one character to one character, so they keep the length of a text. Two texts are
equal up to case when they have the same folded form.
-/

namespace CqlGateway.Text

/-- Move a character by the first run that holds it. -/
def moveBy (runs : List CaseRun) (c : Char) : Char :=
  match runs.findSome? (·.target? c.toNat) with
  | some n => Char.ofNat n
  | none => c

def upperChar (c : Char) : Char :=
  if c.toNat < 128 then c.toUpper else moveBy upperRuns c

def lowerChar (c : Char) : Char :=
  if c.toNat < 128 then c.toLower else moveBy lowerRuns c

/-- The representative of the characters that differ from `c` only in case. -/
def foldChar (c : Char) : Char :=
  if c.toNat < 128 then c.toLower else moveBy foldRuns c

def upper (s : String) : String :=
  String.ofList (s.toList.map upperChar)

def lower (s : String) : String :=
  String.ofList (s.toList.map lowerChar)

/-- A text with every character replaced by its representative up to case. -/
def fold (s : String) : String :=
  String.ofList (s.toList.map foldChar)

def equalFold (s t : String) : Bool :=
  fold s == fold t

end CqlGateway.Text

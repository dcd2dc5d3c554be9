import CqlGateway.Number.Decimal

/-!
# YAML documents

A document is a tree of scalars, sequences and mappings, in which a part may refer to another one
by name. A scalar without quotes stands for a value that depends on its spelling; a scalar in quotes
is a text. A tag says what kind of value a scalar is to be.
-/

namespace CqlGateway

inductive Yaml where
  /-- A scalar, its tag if it has one, and whether it is written in quotes or as a block. Without
  them the empty scalar stands for nothing. -/
  | scalar (tag : Option String) (quoted : Bool) (text : String)
  | sequence (items : List Yaml)
  | mapping (entries : List (Yaml × Yaml))
  /-- A reference to a part of the document, which is absent if the reference stands inside of
  it. -/
  | reference (name : String) (target : Option Yaml)
  deriving Inhabited

namespace Yaml

def nothing : Yaml := .scalar none false ""

/-- What a scalar stands for. -/
inductive Value where
  | null
  | bool (value : Bool)
  | integer (value : Int)
  | double (value : Binary64)
  | infinite (negative : Bool)
  | notANumber
  | text (value : String)

/-- The scalars that stand for nothing. -/
def nullTexts : List String := ["", "~", "null", "Null", "NULL"]

/-- The scalars that stand for a set flag. -/
def trueTexts : List String := ["true", "True", "TRUE"]

/-- The scalars that stand for a flag that is not set. -/
def falseTexts : List String := ["false", "False", "FALSE"]

/-- The value of a digit in a base of at most sixteen. -/
def digit? (base : Nat) (c : Char) : Option Nat :=
  let value? :=
    if c.isDigit then some (c.toNat - 48)
    else if 'a' ≤ c && c ≤ 'f' then some (c.toNat - 87)
    else if 'A' ≤ c && c ≤ 'F' then some (c.toNat - 55)
    else none
  value?.bind fun v => if v < base then some v else none

/-- The number that digits spell, given the number of the digits before them. -/
def digitsFrom? (base n : Nat) : List Char → Option Nat
  | [] => some n
  | c :: cs => (digit? base c).bind fun v => digitsFrom? base (n * base + v) cs

/-- The number that a nonempty run of digits spells. -/
def digits? (base : Nat) (cs : List Char) : Option Nat :=
  if cs.isEmpty then none else digitsFrom? base 0 cs

/-- The number that digits spell, in the base that the first of them tell. -/
def magnitude? : List Char → Option Nat
  | '0' :: 'x' :: cs | '0' :: 'X' :: cs => digits? 16 cs
  | '0' :: 'o' :: cs | '0' :: 'O' :: cs => digits? 8 cs
  | '0' :: 'b' :: cs | '0' :: 'B' :: cs => digits? 2 cs
  | '0' :: c :: cs => digits? 8 (c :: cs)
  | cs => digits? 10 cs

/-- An integer with a sign before its digits. A number that is too large for a word with sign is
taken only without sign. -/
def signed? (magnitude? : List Char → Option Nat) : List Char → Option Int
  | '-' :: cs =>
    (magnitude? cs).bind fun n => if n ≤ Integer64.bound then some (-(n : Int)) else none
  | '+' :: cs => (magnitude? cs).bind fun n => if n < Integer64.bound then some (n : Int) else none
  | cs => (magnitude? cs).bind fun n => if n < Integer64.wordBound then some (n : Int) else none

/-- An integer whose sign stands behind the mark of its base. -/
def innerSigned? : List Char → Option Int
  | '0' :: 'b' :: cs => signed? (digits? 2) cs
  | '0' :: 'o' :: cs => signed? (digits? 8) cs
  | _ => none

def integer? (cs : List Char) : Option Int :=
  (signed? magnitude? cs).or (innerSigned? cs)

/-- Whether a text is a decimal number, with digits on one side of a point at least. -/
def isDecimal (cs : List Char) : Bool :=
  let unsigned :=
    match cs with
    | '-' :: rest | '+' :: rest => rest
    | _ => cs
  let whole := unsigned.takeWhile Char.isDigit
  let rest := unsigned.dropWhile Char.isDigit
  let (places, rest) :=
    match rest with
    | '.' :: more => (more.takeWhile Char.isDigit, more.dropWhile Char.isDigit)
    | _ => ([], rest)
  let exponent :=
    match rest with
    | 'e' :: '-' :: ds | 'e' :: '+' :: ds | 'E' :: '-' :: ds | 'E' :: '+' :: ds
    | 'e' :: ds | 'E' :: ds => !ds.isEmpty && ds.all Char.isDigit
    | [] => true
    | _ => false
  !(whole.isEmpty && places.isEmpty) && exponent

/-- The floating-point number that a text spells. -/
def double? (cs : List Char) : Option Binary64 :=
  if isDecimal cs then Binary64.read? (String.ofList cs) else none

/-- What a scalar that starts like a number stands for. Low lines between the digits do not count,
unless the number starts with a point. -/
def numberValue (s : String) : Value :=
  let cs := s.toList
  let digits := cs.filter (· ≠ '_')
  let number? :=
    if cs.head? = some '.' then (double? cs).map .double
    else ((integer? digits).map Value.integer).or ((double? digits).map .double)
  number?.getD (.text s)

/-- What a scalar without quotes stands for. -/
def valueOf (s : String) : Value :=
  if nullTexts.contains s then .null
  else if trueTexts.contains s then .bool true
  else if falseTexts.contains s then .bool false
  else if [".inf", ".Inf", ".INF", "+.inf", "+.Inf", "+.INF"].contains s then .infinite false
  else if ["-.inf", "-.Inf", "-.INF"].contains s then .infinite true
  else if [".nan", ".NaN", ".NAN"].contains s then .notANumber
  else
    match s.toList with
    | c :: _ => if c.isDigit || c = '-' || c = '+' || c = '.' then numberValue s else .text s
    | [] => .null

/-! ### Tags -/

def textTag : String := "!!str"

/-- The tag of values that a spelling stands for. -/
def Value.tag : Value → String
  | .null => "!!null"
  | .bool _ => "!!bool"
  | .integer _ => "!!int"
  | .double _ | .infinite _ | .notANumber => "!!float"
  | .text _ => textTag

/-- A value under a tag. A tag that is not that of the value is a fault, but an integer may be a
floating-point number. -/
def Value.tagged? (v : Value) (tag : String) : Option Value :=
  if v.tag = tag then some v
  else
    match tag, v with
    | "!!float", .integer n =>
      if n < Integer64.bound then (Binary64.read? (toString n)).map .double else none
    | _, _ => none

/-- What a scalar stands for under its tag. -/
def scalarValue? (tag : Option String) (quoted : Bool) (text : String) : Option Value :=
  match tag with
  | none => some (if quoted then .text text else valueOf text)
  | some tag =>
    if tag = textTag then some (.text text)
    else (valueOf text).tagged? tag

end Yaml

end CqlGateway

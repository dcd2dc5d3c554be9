import CqlGateway.Number.Digits

/-!
# IPv6 addresses

An address is eight groups of up to four hexadecimal digits between colons. Two colons in a row
stand for one or more groups of zeros, once. The last two groups may be written as four decimal
numbers between dots. A zone may follow after a percent sign.
-/

namespace CqlGateway.Network

/-- The parts of a text between the occurrences of a character. -/
def splitAt (sep : Char) : List Char → List (List Char)
  | [] => [[]]
  | c :: cs =>
    if c = sep then [] :: splitAt sep cs
    else
      match splitAt sep cs with
      | part :: parts => (c :: part) :: parts
      | [] => [[c]]

def isHexDigit (c : Char) : Bool :=
  c.isDigit || ('a' ≤ c && c ≤ 'f') || ('A' ≤ c && c ≤ 'F')

def isGroup (cs : List Char) : Bool :=
  !cs.isEmpty && cs.length ≤ 4 && cs.all isHexDigit

/-- Whether a text is a number of a dotted address, without needless zeros in front. -/
def isOctet (cs : List Char) : Bool :=
  !cs.isEmpty && cs.length ≤ 3 && cs.all Char.isDigit && Digits.value cs < 256
    && (cs.length = 1 || cs.head? ≠ some '0')

def isDotted (cs : List Char) : Bool :=
  (splitAt '.' cs).length = 4 && (splitAt '.' cs).all isOctet

/-- The number of groups that parts stand for, the last of which may be a dotted address. -/
def groupCount? : List (List Char) → Option Nat
  | [] => some 0
  | [last] => if isGroup last then some 1 else if isDotted last then some 2 else none
  | part :: rest => if isGroup part then (groupCount? rest).map (· + 1) else none

/-- The number of groups of a part of an address between its ends or two colons in a row. -/
def sideCount? (cs : List Char) : Option Nat :=
  if cs.isEmpty then some 0 else groupCount? (splitAt ':' cs)

/-- The parts of a text before and after the first two colons in a row. -/
def splitElision? : List Char → Option (List Char × List Char)
  | ':' :: ':' :: rest => some ([], rest)
  | c :: cs => (splitElision? cs).map fun (left, right) => (c :: left, right)
  | [] => none

/-- Whether a text without zone is an IPv6 address. -/
def isIpv6Base (cs : List Char) : Bool :=
  match splitElision? cs with
  | none => sideCount? cs = some 8
  | some (left, right) =>
    !left.contains '.' &&
      match sideCount? left, sideCount? right with
      | some m, some n => m + n < 8
      | _, _ => false

/-- Whether a text is an IPv6 address, with a zone or without. -/
def isIpv6 (cs : List Char) : Bool :=
  isIpv6Base (cs.takeWhile (· ≠ '%')) && cs.dropWhile (· ≠ '%') ≠ ['%']

end CqlGateway.Network

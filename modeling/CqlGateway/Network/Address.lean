import CqlGateway.Network.Ipv6
import CqlGateway.Text.Utf8

/-!
# Web addresses

An address is read into its parts, and the parts that may be escaped are unescaped to bytes. When
it is written again, each part escapes what it cannot hold. A path or fragment that was escaped in
another valid way keeps the way it was written.
-/

namespace CqlGateway.Network

/-- The parts of an address, which differ in what has to be escaped in them. -/
inductive AddressPart where
  | path
  | segment
  | user
  | host
  | zone
  | fragment
  deriving DecidableEq, Repr

/-- The byte of a plain character. -/
def byteOf (c : Char) : UInt8 :=
  c.toNat.toUInt8

/-- Whether a byte is one of some plain characters. -/
def isOneOf (chars : String) (b : UInt8) : Bool :=
  chars.toList.any fun c => byteOf c = b

def isAlphanumByte (b : UInt8) : Bool :=
  b < 128 && (Char.ofNat b.toNat).isAlphanum

def reservedMustEscape : AddressPart → UInt8 → Bool
  | .path, b => isOneOf "?" b
  | .segment, b => isOneOf "/;,?" b
  | .user, b => isOneOf "@/?:" b
  | .fragment, _ => false
  | .host, _ | .zone, _ => true

def mustEscape (part : AddressPart) (b : UInt8) : Bool :=
  if isAlphanumByte b || isOneOf "-_.~" b then false
  else if (part = .host || part = .zone) && isOneOf "!$&'()*+,;=:[]<>\"" b then false
  else if isOneOf "$&+,/:;=?@" b then reservedMustEscape part b
  else if part = .fragment && isOneOf "!()*" b then false
  else true

/-- A hexadecimal digit in capital letters. -/
def upperHexDigit (n : Nat) : Char :=
  if n < 10 then Char.ofNat (48 + n) else Char.ofNat (55 + n)

/-- A byte as it stands in a part. -/
def escapeByte (part : AddressPart) (b : UInt8) : List Char :=
  if mustEscape part b then
    ['%', upperHexDigit (b.toNat / 16), upperHexDigit (b.toNat % 16)]
  else
    [Char.ofNat b.toNat]

def escape (part : AddressPart) (bs : List UInt8) : List Char :=
  bs.flatMap (escapeByte part)

def escapeSegment (s : String) : String :=
  String.ofList (escape .segment (Text.bytes s))

def hexDigitValue? (c : Char) : Option Nat :=
  if c.isDigit then some (c.toNat - 48)
  else if 'a' ≤ c && c ≤ 'f' then some (c.toNat - 87)
  else if 'A' ≤ c && c ≤ 'F' then some (c.toNat - 55)
  else none

/-- Whether the escape of a byte may stand in a part: in a host only bytes beyond the plain
characters and the percent sign are escaped, in a zone also what could stand there bare. -/
def mayEscape (part : AddressPart) (b : UInt8) : Bool :=
  match part with
  | .host => 128 ≤ b || b = byteOf '%'
  | .zone => b = byteOf '%' || b = byteOf ' ' || !mustEscape .host b
  | _ => true

/-- Whether a plain character may stand bare in a part when it is read. -/
def mayStand (part : AddressPart) (c : Char) : Bool :=
  match part with
  | .host | .zone => 128 ≤ c.toNat || !mustEscape part (byteOf c)
  | _ => true

/-- The bytes that a part stands for, unless an escape in it is malformed. -/
def unescape? (part : AddressPart) : List Char → Option (List UInt8)
  | [] => some []
  | '%' :: h :: l :: rest =>
    match hexDigitValue? h, hexDigitValue? l with
    | some x, some y =>
      let b := (x * 16 + y).toUInt8
      if mayEscape part b then (unescape? part rest).map (b :: ·) else none
    | _, _ => none
  | c :: rest =>
    if c = '%' || !mayStand part c then none
    else (unescape? part rest).map (String.utf8EncodeChar c ++ ·)

/-- A part that keeps the way it was written. -/
structure Escaped where
  bytes : List UInt8 := []
  written : List Char := []
  deriving DecidableEq, Repr

namespace Escaped

def read? (part : AddressPart) (cs : List Char) : Option Escaped :=
  (unescape? part cs).map fun bs => ⟨bs, cs⟩

/-- Whether a character may stand in a part that was written by hand. -/
def isValidChar (part : AddressPart) (c : Char) : Bool :=
  c.toNat < 128 && (isOneOf "!$&'()*+,;=:@[]%" (byteOf c) || !mustEscape part (byteOf c))

def text (part : AddressPart) (e : Escaped) : List Char :=
  if e.written.all (isValidChar part) then e.written else escape part e.bytes

end Escaped

structure UserInfo where
  name : List UInt8
  password? : Option (List UInt8)
  deriving DecidableEq, Repr

structure Address where
  scheme : String := ""
  /-- What follows the scheme if it does not start with a slash. -/
  rootless : List Char := []
  user? : Option UserInfo := none
  host : List UInt8 := []
  path : Escaped := {}
  /-- Whether the path follows the scheme without a host. -/
  omitHost : Bool := false
  /-- Whether there is a question mark without a query. -/
  bareQuery : Bool := false
  query : List Char := []
  fragment : Escaped := {}
  deriving DecidableEq, Repr

/-! ### Reading -/

/-- The parts of a text before and after the first occurrence of a character. -/
def cut (sep : Char) (cs : List Char) : List Char × List Char :=
  (cs.takeWhile (· ≠ sep), (cs.dropWhile (· ≠ sep)).tail)

/-- The parts of a text before and after the last occurrence of a character, if it occurs. -/
def cutLast? (sep : Char) (cs : List Char) : Option (List Char × List Char) :=
  if cs.contains sep then
    some ((cs.reverse.dropWhile (· ≠ sep)).tail.reverse, (cs.reverse.takeWhile (· ≠ sep)).reverse)
  else
    none

def isSchemeChar (c : Char) : Bool :=
  c.isAlphanum || c = '+' || c = '-' || c = '.'

/-- The scheme of an address and what follows it; no scheme is not a fault, but a colon with
nothing before it is. -/
def scheme? (cs : List Char) : Option (List Char × List Char) :=
  match cs.takeWhile isSchemeChar, cs.dropWhile isSchemeChar with
  | [], ':' :: _ => none
  | first :: more, ':' :: rest => if first.isAlpha then some (first :: more, rest) else some ([], cs)
  | _, _ => some ([], cs)

/-- Whether a text is a port with its colon, or nothing. -/
def isPort : List Char → Bool
  | [] => true
  | c :: cs => c = ':' && cs.all Char.isDigit

/-- The bytes of an address in brackets. -/
def bracketed? (inside : List Char) : Option (List UInt8) := do
  let zoned := (List.range inside.length).find? fun i => "%25".toList.isPrefixOf (inside.drop i)
  let bytes ←
    match zoned with
    | some i => do
      return (← unescape? .host (inside.take i)) ++ (← unescape? .zone (inside.drop i))
    | none => unescape? .host inside
  if isIpv6 (bytes.map fun b => Char.ofNat b.toNat) then some bytes else none

/-- The bytes of a host with its port. -/
def host? (cs : List Char) : Option (List UInt8) :=
  match cutLast? '[' cs with
  | some ([], _) => do
    let (before, port) ← cutLast? ']' cs
    if isPort port then
      let inside ← bracketed? before.tail
      return byteOf '[' :: inside ++ byteOf ']' :: (← unescape? .host port)
    else
      none
  | some _ => none
  | none =>
    match cutLast? ':' cs with
    | some (_, port) => if port.all Char.isDigit then unescape? .host cs else none
    | none => unescape? .host cs

/-- Whether a character may stand in front of a host. -/
def isUserChar (c : Char) : Bool :=
  c.toNat < 128 && (c.isAlphanum || isOneOf "-._:~!$&'()*+,;=%@" (byteOf c))

/-- The name and the password in front of a host. -/
def userInfo? (cs : List Char) : Option UserInfo :=
  if !cs.all isUserChar then none
  else if cs.contains ':' then do
    let (name, password) := cut ':' cs
    return ⟨← unescape? .user name, some (← unescape? .user password)⟩
  else
    (unescape? .user cs).map fun name => ⟨name, none⟩

def authority? (cs : List Char) : Option (Option UserInfo × List UInt8) :=
  match cutLast? '@' cs with
  | none => (host? cs).map fun host => (none, host)
  | some (user, host) => do
    let host ← host? host
    return (some (← userInfo? user), host)

/-- Split off a query: its text, and whether there is only a question mark. -/
def splitQuery (cs : List Char) : List Char × List Char × Bool :=
  if cs.getLast? = some '?' && cs.count '?' = 1 then (cs.dropLast, [], true)
  else ((cut '?' cs).1, (cut '?' cs).2, false)

namespace Address

/-- Read the path of an address, and before it the host if there is one. -/
def withHostAndPath? (a : Address) (cs : List Char) : Option Address :=
  match cs with
  | '/' :: '/' :: rest =>
    if a.scheme = "" && rest.head? = some '/' then do
      return { a with path := ← Escaped.read? .path cs }
    else do
      let (user, host) ← authority? (rest.takeWhile (· ≠ '/'))
      return { a with
        user? := user, host := host
        path := ← Escaped.read? .path (rest.dropWhile (· ≠ '/')) }
  | _ => do
    return { a with
      omitHost := a.scheme ≠ "" && cs.head? = some '/'
      path := ← Escaped.read? .path cs }

def readBase? (cs : List Char) : Option Address := do
  if cs.any fun c => c.toNat < 0x20 || c.toNat = 0x7F then none
  else if cs = ['*'] then some { path := ⟨[byteOf '*'], ['*']⟩ }
  else
    let (scheme, rest) ← scheme? cs
    let (rest, query, bare) := splitQuery rest
    let a : Address :=
      { scheme := String.ofList (scheme.map Char.toLower), query := query, bareQuery := bare }
    if rest.head? = some '/' then a.withHostAndPath? rest
    else if a.scheme ≠ "" then some { a with rootless := rest }
    else if (rest.takeWhile (· ≠ '/')).contains ':' then none
    else a.withHostAndPath? rest

def read? (s : String) : Option Address := do
  let (base, fragment) := cut '#' s.toList
  let a ← readBase? base
  return { a with fragment := ← Escaped.read? .fragment fragment }

/-! ### Writing -/

def userText (u : UserInfo) : List Char :=
  match u.password? with
  | some password => escape .user u.name ++ ':' :: escape .user password
  | none => escape .user u.name

/-- The user and the host as they are written, with the slashes in front. -/
def authorityText (a : Address) : List Char :=
  if a.scheme = "" && a.host.isEmpty && a.user?.isNone then []
  else if a.omitHost && a.host.isEmpty && a.user?.isNone then []
  else
    let slashes :=
      if !a.host.isEmpty || !a.path.bytes.isEmpty || a.user?.isSome then ['/', '/'] else []
    let user :=
      match a.user? with
      | some u => userText u ++ ['@']
      | none => []
    slashes ++ user ++ escape .host a.host

/-- The path as it is written, set off from what stands before it. -/
def pathText (a : Address) (before : List Char) : List Char :=
  let path := a.path.text .path
  if !path.isEmpty && path.head? ≠ some '/' && !a.host.isEmpty then '/' :: path
  else if before.isEmpty && (path.takeWhile (· ≠ '/')).contains ':' then '.' :: '/' :: path
  else path

def text (a : Address) : String :=
  let scheme := if a.scheme = "" then [] else a.scheme.toList ++ [':']
  let middle :=
    if !a.rootless.isEmpty then scheme ++ a.rootless
    else
      let before := scheme ++ a.authorityText
      before ++ a.pathText before
  let query := if a.bareQuery || !a.query.isEmpty then '?' :: a.query else []
  let fragment := if a.fragment.bytes.isEmpty then [] else '#' :: a.fragment.text .fragment
  String.ofList (middle ++ query ++ fragment)

/-- The address without the colon of a port that is not given. -/
def withoutEmptyPort (a : Address) : Address :=
  if a.host.getLast? = some (byteOf ':') then { a with host := a.host.dropLast } else a

/-- The address with stars in place of a password. -/
def textWithoutPassword (a : Address) : String :=
  match a.user? with
  | some ⟨name, some _⟩ =>
    let hidden := String.fromUTF8? (ByteArray.mk (name ++ Text.bytes ":***@").toArray)
    let shown := userText ⟨name, a.user?.bind (·.password?)⟩ ++ ['@']
    let cs := a.text.toList
    match (List.range cs.length).find? fun i => shown.isPrefixOf (cs.drop i) with
    | some i =>
      String.ofList (cs.take i) ++ hidden.getD "" ++ String.ofList (cs.drop (i + shown.length))
    | none => a.text
  | _ => a.text

end Address

end CqlGateway.Network

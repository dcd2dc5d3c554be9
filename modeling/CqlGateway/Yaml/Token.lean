import CqlGateway.Yaml.Character

/-!
# Tokens of YAML

A text is a run of tokens: the marks of its structure, names and tags, and scalars. Some marks of
the structure are not written but told by the indentation of lines.
-/

namespace CqlGateway.Yaml

/-- A token. -/
inductive Token where
  | streamEnd
  | version (major minor : Nat)
  /-- A short form for the first part of tags. -/
  | handle (name start : String)
  | documentStart
  | documentEnd
  | blockSequence
  | blockMapping
  /-- The end of a block that is told by the indentation. -/
  | blockEnd
  | item
  | key
  | value
  | openBracket
  | closeBracket
  | openBrace
  | closeBrace
  | comma
  | anchor (name : String)
  | reference (name : String)
  /-- A tag, given by a short form and the rest, or only by the rest. -/
  | tag (handle rest : String)
  | scalar (quoted : Bool) (text : String)
  deriving DecidableEq, Repr

/-! ### Names and tags -/

/-- The name behind the mark of an anchor or of a reference, and what follows it. -/
def anchorName? (cs : List Char) : Option (String × List Char) :=
  let name := cs.takeWhile isNameChar
  let rest := cs.dropWhile isNameChar
  let closed := atGap rest || rest.head?.any fun c => "?:,]\x7d%@\x60".toList.contains c
  if name.isEmpty || !closed then none else some (String.ofList name, rest)

/-- Whether a character may stand in a tag. -/
def isTagChar (c : Char) : Bool :=
  isNameChar c || ";/?:@&=+$,.!~*'()[]".toList.contains c

/-- The short form that a tag may start with: an exclamation mark, a name and perhaps another
exclamation mark. -/
def tagStart (cs : List Char) : List Char × List Char :=
  let name := cs.tail.takeWhile isNameChar
  match cs.tail.dropWhile isNameChar with
  | '!' :: rest => ('!' :: name ++ ['!'], rest)
  | rest => ('!' :: name, rest)

/-- A tag that is written in full between angle brackets, and what follows it. -/
def fullTag? (cs : List Char) : Option (Token × List Char) :=
  let text := cs.takeWhile isTagChar
  match cs.dropWhile isTagChar with
  | '>' :: rest => if text.isEmpty then none else some (.tag "" (String.ofList text), rest)
  | _ => none

/-- A tag that starts with a short form, and what follows it. -/
def shortTag? (cs : List Char) : Option (Token × List Char) :=
  let (start, rest) := tagStart cs
  let text := rest.takeWhile isTagChar
  let rest := rest.dropWhile isTagChar
  if 1 < start.length && start.getLast? = some '!' then
    if text.isEmpty then none else some (.tag (String.ofList start) (String.ofList text), rest)
  else if start.tail.isEmpty && text.isEmpty then some (.tag "" "!", rest)
  else some (.tag "!" (String.ofList (start.tail ++ text)), rest)

/-- The tag that starts with an exclamation mark, and what follows it. -/
def tag? (cs : List Char) : Option (Token × List Char) :=
  let found :=
    match cs with
    | _ :: '<' :: rest => fullTag? rest
    | _ => shortTag? cs
  found.bind fun (t, rest) => if atGap rest then some (t, rest) else none

/-! ### Directives -/

/-- A number of at most two digits, and what follows it. -/
def versionNumber? (cs : List Char) : Option (Nat × List Char) :=
  let ds := cs.takeWhile Char.isDigit
  if ds.isEmpty || 2 < ds.length then none
  else
    some (ds.foldl (fun n d => n * 10 + (d.toNat - 48)) 0, cs.dropWhile Char.isDigit)

/-- The version that a document asks for, and what follows it. -/
def versionDirective? (cs : List Char) : Option (Token × List Char) := do
  let (major, rest) ← versionNumber? (skipBlanks cs)
  match rest with
  | '.' :: rest => do
    let (minor, rest) ← versionNumber? rest
    return (.version major minor, rest)
  | _ => none

/-- The meaning of a short form, and what follows it. -/
def handleDirective? (cs : List Char) : Option (Token × List Char) :=
  match skipBlanks cs with
  | '!' :: more =>
    let (name, rest) := tagStart ('!' :: more)
    let text := (skipBlanks rest).takeWhile isTagChar
    let after := (skipBlanks rest).dropWhile isTagChar
    if name.getLast? = some '!' && rest.head?.any isBlank && !text.isEmpty && atGap after then
      some (.handle (String.ofList name) (String.ofList text), after)
    else none
  | _ => none

/-- The directive behind its mark, and what follows its line. -/
def directive? (cs : List Char) : Option (Token × List Char) := do
  let name := String.ofList (cs.takeWhile isNameChar)
  let rest := cs.dropWhile isNameChar
  let (t, rest) ←
    if !atGap rest then none
    else if name = "YAML" then versionDirective? rest
    else if name = "TAG" then handleDirective? rest
    else none
  match skipBlanks rest with
  | '#' :: more => return (t, (skipLine more).tail)
  | rest => if atLineEnd rest then return (t, rest.tail) else none

end CqlGateway.Yaml

import CqlGateway.Yaml.Lexer

/-!
# Reading YAML

The first document of a text is read from its tokens. Where a value is due and none is written,
nothing is meant. A part of the document that has a name can be referred to by that name from then
on, also from within.
-/

namespace CqlGateway.Yaml

structure Source where
  tokens : List Token
  /-- The parts that have a name, the last one first; a part that is being read is absent. -/
  anchors : List (String × Option Yaml) := []
  /-- The short forms of tags and what they stand for. -/
  handles : List (String × String) := []

/-- A reader of parts of a document, which fails where the document is malformed. -/
abbrev Parse := StateT Source Option

def peek : Parse Token := do
  (← get).tokens.head?

def advance : Parse Unit :=
  modify fun s => { s with tokens := s.tokens.tail }

/-! ### Names and tags -/

/-- The first part of the tags that need no short form. -/
def standardTagStart : String := "tag:yaml.org,2002:"

/-- A tag as it is compared: standard tags in their short form. -/
def comparedTag (tag : String) : String :=
  if standardTagStart.toList.isPrefixOf tag.toList then
    "!!" ++ String.ofList (tag.toList.drop standardTagStart.length)
  else tag

/-- The tag that a token gives; the tag that is a mere exclamation mark says nothing. -/
def tagOf (handle rest : String) : Parse (Option String) := do
  let tag ←
    if handle = "" then pure rest
    else
      let start ← (← get).handles.lookup handle
      pure (start ++ rest)
  return if tag = "!" then none else some (comparedTag tag)

/-- What is said before a value: its name, and its tag. The flag says whether anything is said. -/
structure Properties where
  anchor : Option String := none
  tag : Option String := none
  given : Bool := false

def readTag (p : Properties) : Parse Properties := do
  match ← peek with
  | .tag handle rest =>
    advance
    return { p with tag := ← tagOf handle rest, given := true }
  | _ => return p

/-- Read the name before a value, if there is one. -/
def readAnchor (p : Properties) : Parse Properties := do
  match ← peek with
  | .anchor name =>
    advance
    return { p with anchor := some name, given := true }
  | _ => return p

/-- Read what is said before a value, in either order. -/
def readProperties : Parse Properties := do
  match ← peek with
  | .anchor _ => readTag (← readAnchor {})
  | .tag _ _ => readAnchor (← readTag {})
  | _ => return {}

def named (anchor : Option String) (value : Parse Yaml) : Parse Yaml := do
  match anchor with
  | none => value
  | some name =>
    let depth := (← get).anchors.length
    modify fun s => { s with anchors := (name, none) :: s.anchors }
    let v ← value
    modify fun s =>
      { s with anchors := s.anchors.set (s.anchors.length - 1 - depth) (name, some v) }
    return v

/-- The part that has a name. -/
def refer (name : String) : Parse Yaml := do
  let target ← (← get).anchors.lookup name
  return .reference name target

/-! ### Values -/

/-- Whether a token follows a key or a value of a block that is left out. -/
def endsBlockValue (t : Token) : Bool :=
  t = .key || t = .value || t = .blockEnd

/-- Whether a token follows a value inside braces that is left out. -/
def endsBraceValue (t : Token) : Bool :=
  t = .comma || t = .closeBrace

/-- Whether a token follows a value inside brackets that is left out. -/
def endsBracketValue (t : Token) : Bool :=
  t = .comma || t = .closeBracket

mutual

/-- Read a value. The flags say whether it may be a block, and whether it may be a sequence that is
not indented. -/
def readNode : (fuel : Nat) → (block flush : Bool) → Parse Yaml
  | 0, _, _ => failure
  | fuel + 1, block, flush => do
    match ← peek with
    | .reference name => advance; refer name
    | _ =>
      let p ← readProperties
      let t ← peek
      match t with
      | .scalar quoted text => advance; named p.anchor (pure (.scalar p.tag quoted text))
      | .openBracket =>
        advance
        named p.anchor (.sequence <$> readBracket fuel true)
      | .openBrace =>
        advance
        named p.anchor (.mapping <$> readBrace fuel true)
      | _ =>
        if flush && t = .item then named p.anchor (.sequence <$> readFlushItems fuel)
        else if block && t = .blockSequence then
          advance
          named p.anchor (.sequence <$> readItems fuel)
        else if block && t = .blockMapping then
          advance
          named p.anchor (.mapping <$> readEntries fuel)
        else if p.given then named p.anchor (pure (.scalar p.tag false ""))
        else failure

def readItems : (fuel : Nat) → Parse (List Yaml)
  | 0 => failure
  | fuel + 1 => do
    match ← peek with
    | .item =>
      advance
      let t ← peek
      let v ← if t = .item || t = .blockEnd then pure nothing else readNode fuel true false
      return v :: (← readItems fuel)
    | .blockEnd => advance; return []
    | _ => failure

/-- Read the items of a sequence that is not indented. -/
def readFlushItems : (fuel : Nat) → Parse (List Yaml)
  | 0 => failure
  | fuel + 1 => do
    match ← peek with
    | .item =>
      advance
      let t ← peek
      let v ← if t = .item || endsBlockValue t then pure nothing else readNode fuel true false
      return v :: (← readFlushItems fuel)
    | _ => return []

def readEntries : (fuel : Nat) → Parse (List (Yaml × Yaml))
  | 0 => failure
  | fuel + 1 => do
    match ← peek with
    | .key =>
      advance
      let k ← readBlockValue fuel
      let v ←
        if (← peek) = .value then
          advance
          readBlockValue fuel
        else pure nothing
      return (k, v) :: (← readEntries fuel)
    | .blockEnd => advance; return []
    | _ => failure

/-- Read a key or a value of a mapping, which may be left out. -/
def readBlockValue : (fuel : Nat) → Parse Yaml
  | 0 => failure
  | fuel + 1 => do
    if endsBlockValue (← peek) then return nothing else readNode fuel true true

/-- Read what is inside brackets up to their end. The flag says whether this is the first item, so
that no comma comes before it. -/
def readBracket : (fuel : Nat) → (first : Bool) → Parse (List Yaml)
  | 0, _ => failure
  | fuel + 1, first => do
    if (← peek) = .closeBracket then
      advance
      return []
    if !first then
      if (← peek) = .comma then advance else failure
    match ← peek with
    | .closeBracket => advance; return []
    | .key =>
      advance
      let pair ← readPair fuel
      return pair :: (← readBracket fuel false)
    | _ =>
      let v ← readNode fuel false false
      return v :: (← readBracket fuel false)

/-- Read a single entry inside brackets, which is a mapping of its own. A key that is left out takes
the next mark with it. -/
def readPair : (fuel : Nat) → Parse Yaml
  | 0 => failure
  | fuel + 1 => do
    let t ← peek
    let k ←
      if t = .value || endsBracketValue t then
        advance
        pure nothing
      else readNode fuel false false
    let v ←
      if (← peek) = .value then
        advance
        if endsBracketValue (← peek) then pure nothing else readNode fuel false false
      else pure nothing
    return .mapping [(k, v)]

/-- Read what is inside braces up to their end. The flag says whether this is the first entry, so
that no comma comes before it. -/
def readBrace : (fuel : Nat) → (first : Bool) → Parse (List (Yaml × Yaml))
  | 0, _ => failure
  | fuel + 1, first => do
    if (← peek) = .closeBrace then
      advance
      return []
    if !first then
      if (← peek) = .comma then advance else failure
    match ← peek with
    | .closeBrace => advance; return []
    | .key =>
      advance
      let t ← peek
      let k ←
        if t = .value || endsBraceValue t then pure nothing else readNode fuel false false
      let v ←
        if (← peek) = .value then
          advance
          if endsBraceValue (← peek) then pure nothing else readNode fuel false false
        else pure nothing
      return (k, v) :: (← readBrace fuel false)
    | _ =>
      let k ← readNode fuel false false
      return (k, nothing) :: (← readBrace fuel false)

end

/-! ### Documents -/

/-- Read what is said about a document before it starts. The flag says whether the version has been
given. -/
def readDirectives : (fuel : Nat) → (version : Bool) → Parse Unit
  | 0, _ => failure
  | fuel + 1, version => do
    match ← peek with
    | .version major minor =>
      if version || major ≠ 1 || minor ≠ 1 then failure
      advance
      readDirectives fuel true
    | .handle name start =>
      if ((← get).handles.lookup name).isSome then failure
      modify fun s => { s with handles := (name, start) :: s.handles }
      advance
      readDirectives fuel version
    | .documentStart => advance
    | _ => failure

/-- The short forms of tags that need not be given. -/
def standardHandles : List (String × String) :=
  [("!", "!"), ("!!", standardTagStart)]

def isDocumentToken : Token → Bool
  | .version _ _ | .handle _ _ | .documentStart | .documentEnd | .streamEnd => true
  | _ => false

/-- Add the short forms of tags that need not be given. -/
def addStandardHandles : Parse Unit :=
  modify fun s => { s with handles := s.handles ++ standardHandles }

def readDocument (fuel : Nat) : Parse Yaml := do
  match ← peek with
  | .streamEnd => return nothing
  | .version _ _ | .handle _ _ | .documentStart =>
    readDirectives fuel false
    addStandardHandles
    let v ← if isDocumentToken (← peek) then pure nothing else readNode fuel true false
    let _ ← peek
    return v
  | _ =>
    addStandardHandles
    let v ← readNode fuel true false
    let _ ← peek
    return v

/-- The first document of a text, unless it is malformed. -/
def read? (text : String) : Option Yaml :=
  (characters? text).bind fun cs =>
    let ts := tokens cs
    ((readDocument (2 * ts.length + 2)).run { tokens := ts }).map (·.1)

end CqlGateway.Yaml

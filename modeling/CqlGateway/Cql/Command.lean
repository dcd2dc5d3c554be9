import CqlGateway.Cql.Describe
import CqlGateway.Text.Scan

/-!
# Commands that inspect the schema

Some commands are understood as they are, before any parser sees them: the lists of keyspaces and
of tables, and the description of a table. They are given by the words `SHOW`, `DESCRIBE` and
`DESC` of several dialects.
-/

namespace CqlGateway.Command

/-- The words that start a list. -/
def listWords : List String :=
  ["show", "describe", "desc"]

def keyspaceWords : List String :=
  ["databases", "schemas", "keyspaces"]

/-- Whether the rest of a command is just one of some words. -/
def isLastWord (words : List String) (cs : List Char) : Bool :=
  words.any fun w => ((Text.keyword? w.toList cs).map Text.atCommandEnd).getD false

/-- Whether a command lists the keyspaces. -/
def listsKeyspaces (cs : List Char) : Bool :=
  match Text.wordAndGap? listWords cs with
  | none => false
  | some rest => isLastWord keyspaceWords (Text.optionalWord "table" rest)

/-- Whether a command lists the tables. -/
def listsTables (cs : List Char) : Bool :=
  match Text.wordAndGap? listWords cs with
  | none => false
  | some rest => isLastWord ["tables"] (Text.optionalWord "full" rest)

/-- The name of a table, with a keyspace or without, that the rest of a command consists of. -/
def tableName? (cs : List Char) : Option TableName := do
  let (first, rest) ← Text.name? cs
  match rest with
  | '.' :: rest => do
    let (second, rest) ← Text.name? rest
    if Text.atCommandEnd rest then
      some ⟨Cql.unquote (String.ofList first), Cql.unquote (String.ofList second)⟩
    else
      none
  | rest =>
    if Text.atCommandEnd rest then some ⟨"", Cql.unquote (String.ofList first)⟩ else none

/-- The table that a command describes. The word `TABLE` may stand before its name. -/
def describedTable? (cs : List Char) : Option TableName := do
  let rest ← Text.wordAndGap? ["describe", "desc"] cs
  match Text.wordAndGap? ["table"] rest with
  | none => tableName? rest
  | some named => (tableName? named).or (tableName? rest)

def shownTable? (cs : List Char) : Option TableName := do
  let rest ← Text.wordAndGap? ["show"] cs
  let rest ← Text.wordAndGap? ["columns", "fields"] (Text.optionalWord "full" rest)
  let rest ← Text.wordAndGap? ["from", "in"] rest
  tableName? rest

/-- The statement that a command stands for, if it is one of those understood as they are. -/
def describe? (text : String) : Option Describe :=
  let cs := text.toList.dropWhile Text.isGap
  if listsKeyspaces cs then some Describe.allKeyspaces
  else if listsTables cs then some Describe.allTables
  else match describedTable? cs with
    | some table => some { object := "table", table := table : Describe }.normalize
    | none => (shownTable? cs).map fun table => { object := "table", table := table }

/-- The command in CQL, if it is one of those understood as they are. -/
def cql? (text : String) : Option String :=
  (describe? text).map Describe.cql

end CqlGateway.Command

import CqlGateway.Statement.Tree
import CqlGateway.Text.Blank
import CqlGateway.Text.Case

/-!
# Identifiers and text literals

Names come in the quotes of the dialect that the statement was written in: backticks, double
quotes or brackets. In CQL a plain identifier that is no reserved word stands bare, and any other
name is put in double quotes, with each quote inside it doubled.
-/

namespace CqlGateway.Cql

def isNameStart (c : Char) : Bool :=
  c.isAlpha || c = '_'

def isNameChar (c : Char) : Bool :=
  c.isAlphanum || c = '_'

/-- Letters, digits and underscores, not starting with a digit. -/
def isPlain : List Char → Bool
  | [] => false
  | c :: cs => isNameStart c && cs.all isNameChar

/-- The words that CQL keeps for itself. -/
def reservedWords : List String :=
  ["ADD", "ALLOW", "ALTER", "AND", "APPLY", "ASC", "AUTHORIZE", "BATCH", "BEGIN", "BY",
   "COLUMNFAMILY", "CREATE", "DELETE", "DESC", "DESCRIBE", "DROP", "ENTRIES", "EXECUTE", "FROM",
   "FULL", "GRANT", "IF", "IN", "INDEX", "INFINITY", "INSERT", "INTO", "KEYSPACE", "LIMIT",
   "MODIFY", "NAN", "NORECURSIVE", "NOT", "NULL", "OF", "ON", "OR", "ORDER", "PRIMARY", "RENAME",
   "REPLACE", "REVOKE", "SCHEMA", "SELECT", "SET", "TABLE", "TO", "TOKEN", "TRUNCATE", "UNLOGGED",
   "UPDATE", "USE", "USING", "VIEW", "WHERE", "WITH"]

/-- Whether a name is a reserved word, in any case of letters. -/
def isReserved (name : String) : Bool :=
  reservedWords.contains (Text.upper name)

def isBare (name : String) : Bool :=
  isPlain name.toList && !isReserved name

def closingQuote? (c : Char) : Option Char :=
  if c = '\x60' || c = '"' then some c
  else if c = '[' then some ']'
  else none

/-- The characters between a quote and the one that closes it; other text is left as it is. -/
def unquoteChars (cs : List Char) : List Char :=
  match cs with
  | first :: second :: rest =>
    if closingQuote? first = (second :: rest).getLast? then (second :: rest).dropLast else cs
  | _ => cs

/-- A name without blanks at its ends and without its quotes. -/
def unquote (name : String) : String :=
  String.ofList (unquoteChars (Text.trimChars name.toList))

/-- Characters with each occurrence of a quote doubled. -/
def doubled (quote : Char) (cs : List Char) : List Char :=
  cs.flatMap fun c => if c = quote then [c, c] else [c]

/-- A name without quotes as it stands in CQL. -/
def quoteBare (name : String) : String :=
  if isBare name then name
  else String.ofList ('"' :: doubled '"' name.toList ++ ['"'])

def quoteIdentifier (name : String) : String :=
  quoteBare (unquote name)

def quoteIdentifiers (names : List String) : String :=
  String.intercalate ", " (names.map quoteIdentifier)

def quoteText (s : String) : String :=
  String.ofList ('\x27' :: doubled '\x27' s.toList ++ ['\x27'])

end CqlGateway.Cql

/-- The name as it stands in CQL, with its keyspace if it has one. -/
def CqlGateway.TableName.cql (t : CqlGateway.TableName) : String :=
  if t.keyspace = "" then CqlGateway.Cql.quoteIdentifier t.name
  else CqlGateway.Cql.quoteIdentifier t.keyspace ++ "." ++ CqlGateway.Cql.quoteIdentifier t.name

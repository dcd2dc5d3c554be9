import CqlGateway.Text.Blank
import CqlGateway.Text.Case

/-!
# Column types

A type of another dialect is read by its name alone: lengths, precisions and signs are dropped. A
type followed by `[]` or `ARRAY` is a list. A name that is not known stands for text.
-/

namespace CqlGateway.Cql

/-- The types of CQL that hold a single value. -/
inductive ScalarType where
  | tinyint
  | smallint
  | int
  | bigint
  | varint
  | decimal
  | float
  | double
  | text
  | boolean
  | date
  | time
  | timestamp
  | duration
  | blob
  | uuid
  | timeuuid
  | inet
  deriving DecidableEq, Repr

def ScalarType.name : ScalarType → String
  | .tinyint => "tinyint"
  | .smallint => "smallint"
  | .int => "int"
  | .bigint => "bigint"
  | .varint => "varint"
  | .decimal => "decimal"
  | .float => "float"
  | .double => "double"
  | .text => "text"
  | .boolean => "boolean"
  | .date => "date"
  | .time => "time"
  | .timestamp => "timestamp"
  | .duration => "duration"
  | .blob => "blob"
  | .uuid => "uuid"
  | .timeuuid => "timeuuid"
  | .inet => "inet"

inductive ColumnType where
  | scalar (type : ScalarType)
  | list (element : ColumnType)
  deriving DecidableEq, Repr

namespace ColumnType

def cql : ColumnType → String
  | .scalar type => type.name
  | .list element => "list<" ++ element.cql ++ ">"

/-- Type names of other dialects. -/
def table : List (String × ScalarType) :=
  [("TINYINT", .tinyint), ("SMALLINT", .smallint), ("INT2", .smallint), ("MEDIUMINT", .int),
   ("INT", .int), ("INTEGER", .int), ("INT4", .int), ("SERIAL", .int), ("BIGINT", .bigint),
   ("INT8", .bigint), ("BIGSERIAL", .bigint), ("VARINT", .varint),
   ("DECIMAL", .decimal), ("DEC", .decimal), ("NUMERIC", .decimal), ("MONEY", .decimal),
   ("FLOAT", .float), ("FLOAT4", .float), ("REAL", .float), ("DOUBLE", .double),
   ("DOUBLE PRECISION", .double), ("FLOAT8", .double),
   ("CHAR", .text), ("CHARACTER", .text), ("NCHAR", .text), ("VARCHAR", .text),
   ("CHARACTER VARYING", .text), ("NVARCHAR", .text), ("VARCHAR2", .text), ("TEXT", .text),
   ("TINYTEXT", .text), ("MEDIUMTEXT", .text), ("LONGTEXT", .text), ("CLOB", .text),
   ("STRING", .text), ("ENUM", .text), ("SET", .text), ("JSON", .text), ("JSONB", .text),
   ("XML", .text),
   ("BOOLEAN", .boolean), ("BOOL", .boolean), ("BIT", .boolean),
   ("DATE", .date), ("TIME", .time), ("DATETIME", .timestamp), ("TIMESTAMP", .timestamp),
   ("TIMESTAMPTZ", .timestamp), ("TIMESTAMP WITH TIME ZONE", .timestamp),
   ("TIMESTAMP WITHOUT TIME ZONE", .timestamp), ("INTERVAL", .duration),
   ("DURATION", .duration),
   ("BLOB", .blob), ("TINYBLOB", .blob), ("MEDIUMBLOB", .blob), ("LONGBLOB", .blob),
   ("BINARY", .blob), ("VARBINARY", .blob), ("BYTEA", .blob),
   ("UUID", .uuid), ("UNIQUEIDENTIFIER", .uuid), ("TIMEUUID", .timeuuid), ("INET", .inet)]

/-! ### Reading a type name -/

/-- Drop each closed group in parentheses with the gaps before it. The first argument holds the
gaps passed last, reversed, the second tells whether the position is inside a group. -/
def dropGroups (gaps : List Char) (inside : Bool) : List Char → List Char
  | [] => gaps.reverse
  | c :: cs =>
    if inside then dropGroups [] (c ≠ ')') cs
    else if Text.isGap c then dropGroups (c :: gaps) false cs
    else if c = '(' && cs.contains ')' then dropGroups [] true cs
    else gaps.reverse ++ c :: dropGroups [] false cs

/-- The words that only say how a number is shown or signed. -/
def modifiers : List (List Char) :=
  ["UNSIGNED".toList, "SIGNED".toList, "ZEROFILL".toList]

/-- Whether a text starts with a word, and the word ends there. -/
def startsWithWord (word cs : List Char) : Bool :=
  word.isPrefixOf cs &&
    match (cs.drop word.length).head? with
    | none => true
    | some c => !(c.isAlphanum || c = '_')

/-- The length of the modifier that a text starts with. -/
def modifierLength? (cs : List Char) : Option Nat :=
  (modifiers.find? fun word => startsWithWord word cs).map List.length

/-- Drop each modifier that follows a gap, with that gap. The first argument holds the gaps passed
last, reversed, the second says how many characters are still to be dropped. -/
def dropModifiers (gaps : List Char) : Nat → List Char → List Char
  | _, [] => gaps.reverse
  | skip + 1, _ :: cs => dropModifiers [] skip cs
  | 0, c :: cs =>
    if Text.isGap c then dropModifiers (c :: gaps) 0 cs
    else if gaps.isEmpty then c :: dropModifiers [] 0 cs
    else match modifierLength? (c :: cs) with
      | some n => dropModifiers [] (n - 1) cs
      | none => gaps.reverse ++ c :: dropModifiers [] 0 cs

/-- Each run of gaps as one space. The first argument tells whether a gap was just passed. -/
def joinGaps (afterGap : Bool) : List Char → List Char
  | [] => []
  | c :: cs =>
    if Text.isGap c then
      if afterGap then joinGaps true cs else ' ' :: joinGaps true cs
    else
      c :: joinGaps false cs

/-- The bare name of a type in capital letters. -/
def baseName (cs : List Char) : String :=
  String.ofList (joinGaps false (Text.trimChars (dropModifiers [] 0 (dropGroups [] false cs))))

/-- The type of the given bare name, and whether the name is known. -/
def ofBase (cs : List Char) : ColumnType × Bool :=
  match table.lookup (baseName cs) with
  | some type => (.scalar type, true)
  | none => (.scalar .text, false)

/-- Read the marks of a list off the end of a type name, which is given reversed and in capital
letters; blanks after a mark are skipped. -/
def ofReversed (trimming : Bool) : List Char → ColumnType × Bool
  | ']' :: '[' :: rest =>
    let (element, known) := ofReversed true rest
    (.list element, known)
  | 'Y' :: 'A' :: 'R' :: 'R' :: 'A' :: ' ' :: rest =>
    let (element, known) := ofReversed true rest
    (.list element, known)
  | c :: rest =>
    if trimming && Text.isBlank c then ofReversed true rest else ofBase (c :: rest).reverse
  | [] => ofBase []

/-- The CQL type for a type of another dialect, and whether that type is known. -/
def ofSource (source : String) : ColumnType × Bool :=
  ofReversed false ((Text.trimChars source.toList).map Text.upperChar).reverse

end ColumnType

end CqlGateway.Cql

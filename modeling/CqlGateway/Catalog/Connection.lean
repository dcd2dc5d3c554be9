import CqlGateway.Catalog.Introspection
import CqlGateway.Network.Address

/-!
# Connections to relational databases

The settings of a connection, the text in which a driver takes them, and how they are read from
the environment. Placeholders in a query are question marks; one dialect numbers them.
-/

namespace CqlGateway.Catalog

def Dialect.name : Dialect → String
  | .mysql => "mysql"
  | .postgres => "postgres"
  | .sqlite => "sqlite"

def Dialect.all : List Dialect := [.mysql, .postgres, .sqlite]

def Dialect.ofExactName? (name : String) : Option Dialect :=
  all.find? (·.name = name)

/-- The dialect of a name, in any letter case and under all names it is known by. -/
def Dialect.ofName? (name : String) : Option Dialect :=
  match Text.lower name with
  | "mysql" | "mariadb" => some .mysql
  | "postgres" | "postgresql" | "pg" => some .postgres
  | "sqlite" | "sqlite3" => some .sqlite
  | _ => none

/-- The dialect of a name, or the failure for a name that is not known. -/
def Dialect.ofName (name : String) : Except Failure Dialect :=
  match ofName? name with
  | some d => .ok d
  | none => .error (.plain ("unsupported database type: " ++ name))

/-- The port on which databases of a dialect listen, empty if they do not. -/
def Dialect.defaultPort : Dialect → String
  | .mysql => "3306"
  | .postgres => "5432"
  | .sqlite => ""

structure Connection where
  type : String := ""
  host : String := ""
  tcpPort : String := ""
  database : String := ""
  user : String := ""
  password : String := ""
  /-- The file of an embedded database. -/
  path : String := ""
  deriving DecidableEq, Repr

namespace Connection

/-- The port that is connected to. -/
def portFor (c : Connection) (d : Dialect) : String :=
  if c.tcpPort = "" then d.defaultPort else c.tcpPort

/-- A host with its port. A host with colons stands in brackets. -/
def hostAndPort (host tcpPort : String) : String :=
  if host.toList.contains ':' then "[" ++ host ++ "]:" ++ tcpPort else host ++ ":" ++ tcpPort

def userText (c : Connection) : String :=
  if c.user = "" then ""
  else c.user ++ (if c.password = "" then "" else ":" ++ c.password) ++ "@"

/-- The file of an embedded database; without one the database is kept in memory. -/
def file (c : Connection) : String :=
  if c.path = "" then ":memory:" else c.path

/-- The settings as a driver of the dialect takes them. -/
def text (c : Connection) : Dialect → String
  | .mysql =>
    c.userText ++ "tcp(" ++ hostAndPort c.host (c.portFor .mysql) ++ ")/"
      ++ Network.escapeSegment c.database ++ "?parseTime=true"
  | .postgres =>
    "host=" ++ c.host ++ " port=" ++ c.portFor .postgres ++ " user=" ++ c.user ++ " password="
      ++ c.password ++ " dbname=" ++ c.database ++ " sslmode=disable"
  | .sqlite => c.file

/-- The settings in the environment, given as a function that is empty for what is not set. -/
def ofEnvironment (env : String → String) : Except Failure Connection := do
  let type := env "DB_TYPE"
  if type = "" then throw (.plain "DB_TYPE environment variable is required")
  let dialect ← Dialect.ofName type
  if dialect = .sqlite then
    if env "DB_PATH" = "" then
      throw (.plain "DB_PATH environment variable is required for sqlite")
    return { type := dialect.name, path := env "DB_PATH" }
  if env "DB_NAME" = "" then throw (.plain "DB_NAME environment variable is required")
  return {
    type := dialect.name
    host := if env "DB_HOST" = "" then "localhost" else env "DB_HOST"
    tcpPort := if env "DB_PORT" = "" then dialect.defaultPort else env "DB_PORT"
    database := env "DB_NAME"
    user := env "DB_USER"
    password := env "DB_PASSWORD" }

end Connection

/-- A query with numbers for its placeholders, of which there have been so many before. -/
def numberPlaceholders (count : Nat) : List Char → List Char
  | [] => []
  | '?' :: cs => '$' :: (toString (count + 1)).toList ++ numberPlaceholders (count + 1) cs
  | c :: cs => c :: numberPlaceholders count cs

/-- A query with the placeholders of a dialect. -/
def Dialect.rebind (d : Dialect) (query : String) : String :=
  if d = .postgres then String.ofList (numberPlaceholders 0 query.toList) else query

end CqlGateway.Catalog

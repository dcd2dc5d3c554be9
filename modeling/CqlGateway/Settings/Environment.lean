import CqlGateway.Settings.File

/-!
# Settings in the environment

Variables of the environment replace settings. A variable that is empty is taken as not set. All
variables that cannot be read are reported together.
-/

namespace CqlGateway

/-- The environment: the value of a variable, empty if it is not set. -/
abbrev Environment := String → String

namespace Settings

def variableNames : List String :=
  ["CQLBRIDGE_CASSANDRA_HOSTS", "CQLBRIDGE_CASSANDRA_KEYSPACE", "CQLBRIDGE_CASSANDRA_CONSISTENCY",
    "CQLBRIDGE_CASSANDRA_TIMEOUT", "CQLBRIDGE_CASSANDRA_CONNECT_TIMEOUT",
    "CQLBRIDGE_CASSANDRA_USERNAME", "CQLBRIDGE_CASSANDRA_PASSWORD", "CQLBRIDGE_AUTHORITY_TYPE",
    "CQLBRIDGE_AUTHORITY_URL", "CQLBRIDGE_AUTHORITY_TIMEOUT", "CQLBRIDGE_AUTH_ALLOW_UNANNOTATED",
    "CQLBRIDGE_CACHE_TTL", "CQLBRIDGE_CACHE_SIZE", "CQLBRIDGE_REPLICATION_CLASS",
    "CQLBRIDGE_REPLICATION_FACTOR", "CQLBRIDGE_REPLICATION_DATACENTER", "CQLBRIDGE_DEFAULT_LIMIT",
    "CQLBRIDGE_LOG_LEVEL", "CQLBRIDGE_LOG_DEVELOPMENT", "DB_TYPE", "DB_HOST", "DB_PORT", "DB_NAME",
    "DB_USER", "DB_PASSWORD", "DB_PATH"]

/-- Reading variables, with the failures so far. -/
abbrev Overriding (α : Type) := StateM (List Failure) α

/-- Replace a setting by the value of a variable, if that is set. -/
def override {α : Type} (env : Environment) (name : String) (read : String → Except Failure α)
    (old : α) : Overriding α :=
  if env name = "" then pure old
  else
    match read (env name) with
    | .ok a => pure a
    | .error f => do
      modify fun failures => failures ++ [.wrapped ("invalid " ++ name) f]
      return old

def readText (s : String) : Except Failure String :=
  .ok s

def readDuration (s : String) : Except Failure Int :=
  match Duration.read s with
  | .ok d => .ok d
  | .error message => .error (.foreign message)

def conversionFailure (conversion s problem : String) : Failure :=
  .foreign ("strconv." ++ conversion ++ ": parsing " ++ Text.quote s ++ ": " ++ problem)

def readInteger (conversion : String) (s : String) : Except Failure Int :=
  match Integer64.read s with
  | .ok n => .ok n
  | .error fault => .error (conversionFailure conversion s fault.message)

def readFlag (s : String) : Except Failure Bool :=
  match Catalog.Cell.flagOfText? s with
  | some b => .ok b
  | none => .error (conversionFailure "ParseBool" s "invalid syntax")

/-- Names between commas, without the empty ones. -/
def readHosts (s : String) : Except Failure (List String) :=
  .ok (((s.splitOn ",").map Text.trim).filter (· ≠ ""))

def overrideStore (env : Environment) (s : Execution.StoreSettings) :
    Overriding Execution.StoreSettings := do
  return {
    hosts := ← override env "CQLBRIDGE_CASSANDRA_HOSTS" readHosts s.hosts
    keyspace := ← override env "CQLBRIDGE_CASSANDRA_KEYSPACE" readText s.keyspace
    consistency := ← override env "CQLBRIDGE_CASSANDRA_CONSISTENCY" readText s.consistency
    timeout := ← override env "CQLBRIDGE_CASSANDRA_TIMEOUT" readDuration s.timeout
    connectTimeout :=
      ← override env "CQLBRIDGE_CASSANDRA_CONNECT_TIMEOUT" readDuration s.connectTimeout
    username := ← override env "CQLBRIDGE_CASSANDRA_USERNAME" readText s.username
    password := ← override env "CQLBRIDGE_CASSANDRA_PASSWORD" readText s.password }

/-- The settings of the authority after the environment, but for its database. -/
def overrideAuthority (env : Environment) (a : AuthoritySettings) :
    Overriding AuthoritySettings := do
  return { a with
    type := Text.lower (← override env "CQLBRIDGE_AUTHORITY_TYPE" readText a.type)
    url := ← override env "CQLBRIDGE_AUTHORITY_URL" readText a.url
    timeout := ← override env "CQLBRIDGE_AUTHORITY_TIMEOUT" readDuration a.timeout
    allowUnannotated :=
      ← override env "CQLBRIDGE_AUTH_ALLOW_UNANNOTATED" readFlag a.allowUnannotated }

def overrideDatabase (env : Environment) (a : AuthoritySettings) :
    Overriding AuthoritySettings := do
  if a.type = "sql" && env "DB_TYPE" ≠ "" then
    match Catalog.Connection.ofEnvironment env with
    | .ok c => return { a with database := c }
    | .error f =>
      modify fun failures => failures ++ [f]
      return a
  else
    return a

def overrideAll (env : Environment) (s : Settings) : Overriding Settings := do
  let store ← overrideStore env s.store
  let authority ← overrideAuthority env s.authority
  let cache : CacheSettings := {
    ttl := ← override env "CQLBRIDGE_CACHE_TTL" readDuration s.cache.ttl
    size := ← override env "CQLBRIDGE_CACHE_SIZE" (readInteger "Atoi") s.cache.size }
  let replication : Replication := {
    strategy := ← override env "CQLBRIDGE_REPLICATION_CLASS" readText s.replication.strategy
    factor :=
      ← override env "CQLBRIDGE_REPLICATION_FACTOR" (readInteger "Atoi") s.replication.factor
    dataCenter :=
      ← override env "CQLBRIDGE_REPLICATION_DATACENTER" readText s.replication.dataCenter }
  let limit ← override env "CQLBRIDGE_DEFAULT_LIMIT" (readInteger "ParseInt") s.defaultLimit
  let log : LogSettings := {
    level := ← override env "CQLBRIDGE_LOG_LEVEL" readText s.log.level
    development := ← override env "CQLBRIDGE_LOG_DEVELOPMENT" readFlag s.log.development }
  return {
    store := store
    authority := ← overrideDatabase env authority
    cache := cache
    replication := replication
    defaultLimit := limit
    log := log }

def joined (failures : List Failure) : Failure :=
  .plain (String.intercalate "\n" (failures.map Failure.message))

/-- The settings after the environment, or what cannot be read in it. -/
def withEnvironment (s : Settings) (env : Environment) : Except Failure Settings :=
  match (overrideAll env s).run [] with
  | (result, []) => .ok result
  | (_, failures) => .error (joined failures)

structure File where
  path : String
  text : Except Failure String

def ofFile (f : File) : Except Failure Settings :=
  match f.text with
  | .error cause => .error (.wrapped "failed to read config file" cause)
  | .ok text =>
    match ofText? text with
    | some s => .ok s
    | none =>
      .error (.wrapped ("failed to parse config file " ++ f.path) (.foreign "<yaml error>"))

/-- The settings in a file, if there is one, after the environment. -/
def load (file? : Option File) (env : Environment) : Except Failure Settings := do
  let s ←
    match file? with
    | some f => ofFile f
    | none => pure {}
  let s ← s.withEnvironment env
  s.validate
  return s

def absentFile (path : String) : Failure :=
  .foreign ("open " ++ path ++ ": no such file or directory")

end Settings

end CqlGateway

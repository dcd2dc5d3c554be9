import CqlGateway.Catalog.Migration
import CqlGateway.Catalog.Snapshot
import CqlGateway.CommandLine.Gateway

/-!
# Commands

What each command does, and the run of a whole command line: its words are read, and the command
that they name is carried out. A run ends with what it printed, the files as they are then, and
the failure that ended it, if one did.
-/

namespace CqlGateway.CommandLine

open Permission (Grants)
open Catalog (Snapshot)

/-! ### Statements -/

/-- The text of the statement that a command is given. -/
def statementText (s : Surroundings) (i : Invocation) : Run String := do
  if i.options.ast = "-" then return s.input
  else if i.options.ast ≠ "" then
    match (← get).files.read i.options.ast with
    | .ok text => return text
    | .error f => throw (.wrapped "failed to read statement file" f)
  else if i.arguments.isEmpty then
    throw (.plain "no statement given; pass it as an argument or with --ast")
  else
    return String.intercalate " " i.arguments

def printResult (r : ServiceResult) : Run Unit := do
  Run.complain (String.join (r.warnings.map fun w => "-- warning: " ++ w ++ "\n"))
  if r.success then Run.print (r.output ++ "\n")
  else throw (.plain (r.category ++ ": " ++ r.diagnostic))

/-- Handle a request with the service, and keep the counters. -/
def request (g : Gateway) (s : Surroundings) (store? : Option Execution.Store)
    (delivered : Execution.Notification → Bool) (q : ServiceRequest) : Run Handled := do
  let moment : Moment := ⟨s.now * 1000000000, s.now * 1000000000⟩
  let handled :=
    (g.service s store?).handle { cache := g.cache, metrics := (← get).metrics } moment delivered q
  Run.count fun _ => handled.state.metrics
  return handled

def translate (s : Surroundings) (i : Invocation) (g : Gateway) : Run Unit := do
  let text ← statementText s i
  let handled ← request g s none (fun _ => true) { subject := .text text }
  printResult handled.result

/-- Connect to the store for an execution, which needs an authority. -/
def connectStore (s : Surroundings) (g : Gateway) : Run (Execution.Store × OpenAuthority) := do
  match g.authority? with
  | none =>
    throw (.hinted "set authority.type to http or sql in the configuration file"
      (.plain "exec requires a permission authority"))
  | some authority =>
    let cluster ← Run.ofExcept g.settings.store.cluster
    match s.connect cluster with
    | .ok store => return (store, authority)
    | .error f => throw (.wrapped "failed to connect to cassandra" f)

def execute (s : Surroundings) (i : Invocation) (g : Gateway) : Run Unit := do
  let (store, authority) ← connectStore s g
  let text ← statementText s i
  let delivered (n : Execution.Notification) : Bool := (authority.notify s n).isOk
  let handled ← request g s (some store) delivered
    { subject := .text text, execute := true,
      caller := ⟨i.options.subject, i.options.credential⟩ }
  Run.changeFiles (authority.notifyAll s handled.notifications).save
  printResult handled.result
  match handled.result.execution?.bind (·.result) with
  | some rows => if rows.columns.isEmpty then pure () else Run.print rows.display
  | none => pure ()

/-! ### Permissions -/

def listPermissions (s : Surroundings) (i : Invocation) (g : Gateway) : Run Unit := do
  match g.authority? with
  | none => throw (.plain "no permission authority is configured")
  | some authority =>
    let subject := i.options.subject
    let time := s.now * 1000000000
    let lookup := g.cache.operations (authority.fetcher s) time time subject i.options.credential
    Run.count fun m => m.observeLookup lookup.result.name
    if lookup.operations.isEmpty then
      Run.print (subject ++ " may not run any operation\n")
    else
      Run.print (subject ++ " may run: " ++ String.intercalate ", " lookup.operations ++ "\n")
      if (lookup.cache.find? subject).isSome then Run.print "fetched now\n"

/-- Grant operations to a subject, or withdraw them. -/
def changeGrants (granting : Bool) (i : Invocation) (g : Gateway) : Run Unit := do
  match g.authority? with
  | some (.tables database content) =>
    let grants := Grants.ofDatabase content
    let subject := i.options.subject
    let changed ← Run.ofExcept
      (if granting then grants.grant subject i.arguments else grants.revoke subject i.arguments)
    Run.changeFiles (database.save (changed.store content))
    Run.print (String.intercalate ", " i.arguments
      ++ (if granting then " granted to " else " revoked from ") ++ subject ++ "\n")
  | _ =>
    throw (.hinted "set authority.type to sql"
      (.plain "grants can only be changed with the sql authority"))

/-! ### Catalogs -/

/-- Where the catalog of a database comes from, in words. -/
def originOf (c : Catalog.Connection) : String :=
  c.type ++ ":" ++ c.database ++ c.path

def saveSnapshot (snapshot : Snapshot) (path : String) : Run Unit := do
  match (← get).files.makeDirectory (Path.parent path) with
  | .error f => throw (.wrapped "failed to create output directory" f)
  | .ok files =>
    if files.isDirectory path then
      throw (.wrapped "failed to remove existing snapshot"
        (.foreign ("remove " ++ path ++ ": directory not empty")))
    Run.changeFiles fun _ => files.put path snapshot.save.write
  Run.complain ("catalog of " ++ toString snapshot.tables.length ++ " table(s) saved to " ++ path
    ++ "\n")

def loadSnapshot (path : String) : Run Snapshot := do
  let files := (← get).files
  if (files.get? path).isNone && !files.isDirectory path && (files.obstacle? path).isNone then
    throw (Snapshot.missingFailure path)
  match Catalog.openFile files path with
  | .error f => throw (.wrapped "failed to open snapshot database" f)
  | .ok (database, _) =>
    match database.content with
    | .error f => throw (.wrapped "failed to query metadata" f)
    | .ok d => Run.ofExcept (Snapshot.load d)

def countTried (s : Script) : Run Unit :=
  Run.count fun m => s.tried.foldl (fun m (kind, success) => m.observeRendering kind success) m

/-- Compare the catalog with an earlier one if that is asked for, and save it if that is. The
result is the script of the changes, if there was a comparison. -/
def compareCatalog (s : Surroundings) (o : Options) (options : RenderingOptions) (origin : String)
    (source : TableSource) : Run (Option Script) := do
  if o.since = "" && o.save = "" then return none
  let current ← Run.ofExcept (Snapshot.capture source origin o.tables s.now)
  if o.save ≠ "" then saveSnapshot current o.save
  if o.since = "" then return none
  let previous ← loadSnapshot o.since
  let differences := previous.tables.compare current.tables
  Run.complain (TableDifference.display differences)
  let script := Script.migration options o.keyspace differences
  countTried script
  return some script

def catalogScript (o : Options) (options : RenderingOptions) (source : TableSource) :
    Run Script := do
  let (script, failure?) := Script.build options o.keyspace source o.tables
  countTried script
  match failure? with
  | some f => throw f
  | none => return script

def importCatalog (s : Surroundings) (i : Invocation) (g : Gateway) : Run Unit := do
  let options := g.settings.renderingOptions
  let connection ←
    match Catalog.Connection.ofEnvironment s.environment with
    | .ok c => pure c
    | .error f => throw (.wrapped "failed to load database config" f)
  let database ← openDatabase connection
  let script ←
    match ← compareCatalog s i.options options (originOf connection) database.tables with
    | some script => pure script
    | none => catalogScript i.options options database.tables
  Run.print script.text
  if !script.skipped.isEmpty then
    Run.complain (toString script.skipped.length ++ " table(s) skipped: "
      ++ String.intercalate ", " script.skipped ++ "\n")

/-! ### The command line -/

def usage : String :=
  "Usage:\n"
    ++ "  cqlbridge translate [statement]\n"
    ++ "  cqlbridge exec [statement]\n"
    ++ "  cqlbridge perms --subject name\n"
    ++ "  cqlbridge perms grant operation... --subject name\n"
    ++ "  cqlbridge perms revoke operation... --subject name\n"
    ++ "  cqlbridge import\n"

def Invocation.run (i : Invocation) (s : Surroundings) : Run Unit :=
  if i.asksForUsage then Run.print usage
  else
    match i.command with
    | .translate => withGateway s i.options (translate s i)
    | .exec => withGateway s i.options (execute s i)
    | .perms => withGateway s i.options (listPermissions s i)
    | .grant => withGateway s i.options (changeGrants true i)
    | .revoke => withGateway s i.options (changeGrants false i)
    | .importCatalog => withGateway s i.options (importCatalog s i)
    | .root | .help | .completion => Run.print usage

def runWords (s : Surroundings) (words : List String) : Run Unit := do
  (← Run.ofExcept (Invocation.ofWords words)).run s

/-- The paths that a command line names, in its flags and in the environment. -/
def namedPaths (s : Surroundings) (words : List String) : List String :=
  match Invocation.ofWords words with
  | .error _ => []
  | .ok i =>
    [i.options.config, i.options.metricsFile, i.options.ast, i.options.save, i.options.since,
      s.environment "DB_PATH"].filter (· ≠ "")

/-- The paths that the settings name. The settings may be in one of the files. -/
def settledPaths (s : Surroundings) (files : Files) (words : List String) : List String :=
  match Invocation.ofWords words with
  | .error _ => []
  | .ok i =>
    match (loadSettings s i.options).run { files := files } with
    | (.ok settings, _) => [settings.authority.database.path].filter (· ≠ "")
    | (.error _, _) => []

/-- Whether a command line takes its statement from the standard input. -/
def readsInput (words : List String) : Bool :=
  match Invocation.ofWords words with
  | .ok i => i.options.ast = "-"
  | .error _ => false

structure Ended where
  world : World
  failure? : Option Failure

/-- What is said of a failure that ended a run. -/
def Ended.complaint (e : Ended) : String :=
  match e.failure? with
  | none => ""
  | some f =>
    "Error: " ++ f.message ++ "\n"
      ++ (if f.hintText = "" then "" else "Hint: " ++ f.hintText ++ "\n")

def run (s : Surroundings) (files : Files) (words : List String) : Ended :=
  match (runWords s words).run { files := files } with
  | (.ok (), world) => ⟨world, none⟩
  | (.error f, world) => ⟨world, some f⟩

end CqlGateway.CommandLine

import CqlGateway.CommandLine.Arguments
import CqlGateway.Execution.Display
import CqlGateway.Execution.Session
import CqlGateway.Permission.Remote
import CqlGateway.Permission.Tables
import CqlGateway.Service
import CqlGateway.Settings.Environment
import CqlGateway.Settings.LogLevel

/-!
# A run of the gateway

A run reads the settings, opens the authority that they name, does what a command asks for, and
writes the counters to a file if it is told to. The counters are written whenever the settings
could be used, also if the command fails.
-/

namespace CqlGateway.CommandLine

open Permission (Remote HttpRequest HttpReply Grants)
open Catalog (EmbeddedDatabase OpenDatabase)

/-- What a run is given from outside. -/
structure Surroundings where
  environment : Environment
  input : String := ""
  /-- The time in seconds. -/
  now : Int := 0
  send : HttpRequest → HttpReply
  connect : Execution.Cluster → Except Failure Execution.Store

/-- What a run changes. -/
structure World where
  files : Files
  metrics : Metrics := {}
  out : String := ""
  /-- What was printed about problems. -/
  err : String := ""

/-- A part of a run. What it has done stays done if it fails. -/
abbrev Run := ExceptT Failure (StateM World)

namespace Run

def print (text : String) : Run Unit :=
  modify fun w => { w with out := w.out ++ text }

def complain (text : String) : Run Unit :=
  modify fun w => { w with err := w.err ++ text }

def changeFiles (change : Files → Files) : Run Unit :=
  modify fun w => { w with files := change w.files }

def count (change : Metrics → Metrics) : Run Unit :=
  modify fun w => { w with metrics := change w.metrics }

def ofExcept {α : Type} (e : Except Failure α) : Run α :=
  match e with
  | .ok a => pure a
  | .error f => throw f

/-- Do something, and something else after it, whether it fails or not. -/
def thenAlways (body : Run Unit) (after : World → World) : Run Unit :=
  fun w =>
    let (result, w) := body w
    (result, after w)

end Run

/-! ### Authorities -/

inductive OpenAuthority where
  | remote (service : Remote)
  | tables (database : OpenDatabase) (content : EmbeddedDatabase)

def openDatabase (c : Catalog.Connection) : Run OpenDatabase := do
  let (database, files) ← Run.ofExcept (c.open (← get).files)
  Run.changeFiles fun _ => files
  return database

def openTables (c : Catalog.Connection) : Run OpenAuthority := do
  let database ←
    tryCatch (openDatabase c) fun f =>
      throw (.wrapped "failed to open permission database" f)
  let content ← Run.ofExcept (Permission.withTables database)
  Run.changeFiles (database.save content)
  return .tables database content

/-- Open the authority that settings name, if they name one. -/
def openAuthority (a : AuthoritySettings) : Run (Option OpenAuthority) := do
  match a.type with
  | "none" => return none
  | "http" => return some (.remote (← Run.ofExcept (Remote.ofUrl a.url)))
  | "sql" => return some (← openTables a.database)
  | type => throw (.plain ("unknown authority type " ++ Text.quote type))

namespace OpenAuthority

/-- How the authority is asked for the operations of a subject. -/
def fetcher (a : OpenAuthority) (s : Surroundings) : Permission.Fetcher := fun subject credential =>
  match a with
  | .remote service =>
    match service.operationsRequest subject credential with
    | .ok q => (s.send q).operations q
    | .error f => .error f
  | .tables _ content => (Grants.ofDatabase content).allowedOperations subject

/-- Tell the authority of a change of keyspaces; the tables of permissions are given as they are
after that. -/
def notify (a : OpenAuthority) (s : Surroundings) (n : Execution.Notification) :
    Except Failure OpenAuthority :=
  match a with
  | .remote service => do
    let q ←
      match n.change.action with
      | .add =>
        service.addRequest n.caller.subject n.caller.credential n.change.keyspace
      | .remove =>
        service.removeRequest n.caller.subject n.caller.credential n.change.keyspace
    (s.send q).accepted q
    return a
  | .tables database content => do
    let g := Grants.ofDatabase content
    let g ←
      match n.change.action with
      | .add => g.addKeyspace n.caller.subject n.change.keyspace
      | .remove => g.removeKeyspace n.caller.subject n.change.keyspace
    return .tables database (g.store content)

/-- The authority after it was told of changes, as far as it took them. -/
def notifyAll (a : OpenAuthority) (s : Surroundings) (ns : List Execution.Notification) :
    OpenAuthority :=
  ns.foldl (fun a n => (a.notify s n).toOption.getD a) a

/-- The files after the authority has changed. -/
def save (a : OpenAuthority) (files : Files) : Files :=
  match a with
  | .remote _ => files
  | .tables database content => database.save content files

end OpenAuthority

/-! ### The gateway -/

/-- The gateway as it was set up for a command. -/
structure Gateway where
  settings : Settings
  authority? : Option OpenAuthority

namespace Gateway

def cache (g : Gateway) : Permission.Cache :=
  .ofSettings g.settings.cache.ttl g.settings.cache.size

def guard? (g : Gateway) (s : Surroundings) : Option ServiceGuard :=
  g.authority?.map fun a => ⟨g.settings.authority.allowUnannotated, a.fetcher s⟩

def service (g : Gateway) (s : Surroundings) (store? : Option Execution.Store) : Service where
  options := g.settings.renderingOptions
  countsRenderings := true
  guard? := g.guard? s
  store? := store?

end Gateway

def loadSettings (s : Surroundings) (o : Options) : Run Settings := do
  let files := (← get).files
  let file? : Option Settings.File :=
    if o.config = "" then none else some ⟨o.config, files.read o.config⟩
  let settings ← Run.ofExcept (Settings.load file? s.environment)
  let _ ← Run.ofExcept (LogLevel.ofSettings settings.log.level settings.log.development)
  return settings

/-- The world after the counters were written, if that is asked for and can be done. -/
def World.writeMetrics (path : String) (w : World) : World :=
  if path ≠ "" && w.files.canHold path then
    { w with files := w.files.put path w.metrics.text }
  else w

/-- Set the gateway up, do something with it, and write the counters. -/
def withGateway (s : Surroundings) (o : Options) (body : Gateway → Run Unit) : Run Unit := do
  let settings ← loadSettings s o
  Run.thenAlways
    (do
      let authority? ← openAuthority settings.authority
      body ⟨settings, authority?⟩)
    (World.writeMetrics o.metricsFile)

end CqlGateway.CommandLine

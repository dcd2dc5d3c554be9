/-!
# Counters

The gateway counts renderings, executions, lookups in the permission cache and notifications. The
counters are written in a text format: families in the order of their names, each with a line of
help, a line for its type, and its samples in the order of their labels.
-/

namespace CqlGateway

inductive CounterFamily where
  | executions
  | notifications
  | cacheLookups
  | renderings
  deriving DecidableEq, Repr

namespace CounterFamily

def all : List CounterFamily :=
  [.executions, .notifications, .cacheLookups, .renderings]

def name : CounterFamily → String
  | .executions => "cqlbridge_executions_total"
  | .notifications => "cqlbridge_keyspace_notifications_total"
  | .cacheLookups => "cqlbridge_permission_cache_lookups_total"
  | .renderings => "cqlbridge_translations_total"

/-- What a family counts. -/
def help : CounterFamily → String
  | .executions => "Translated statements executed, by mode and outcome."
  | .notifications =>
    "Keyspace access notifications sent to the permission authority, by action and outcome."
  | .cacheLookups => "Permission cache lookups, by result (hit, miss, error)."
  | .renderings => "Statements translated, by statement kind and outcome."

def labels : CounterFamily → List String
  | .executions => ["mode", "outcome"]
  | .notifications => ["action", "outcome"]
  | .cacheLookups => ["result"]
  | .renderings => ["kind", "outcome"]

end CounterFamily

/-- A number of observations with the same labels. -/
structure Sample where
  family : CounterFamily
  labels : List String
  count : Nat
  deriving DecidableEq, Repr

/-- All counters, the samples in the order of their labels. -/
structure Metrics where
  samples : List Sample := []
  deriving DecidableEq, Repr

namespace Metrics

def countIn (family : CounterFamily) (labels : List String) : List Sample → List Sample
  | [] => [⟨family, labels, 1⟩]
  | s :: rest =>
    if s.family = family && s.labels = labels then { s with count := s.count + 1 } :: rest
    else if labels < s.labels then ⟨family, labels, 1⟩ :: s :: rest
    else s :: countIn family labels rest

def observe (m : Metrics) (family : CounterFamily) (labels : List String) : Metrics :=
  ⟨countIn family labels m.samples⟩

def outcomeLabel (success : Bool) : String :=
  if success then "ok" else "error"

/-- Count an attempt to render a statement of some kind. -/
def observeRendering (m : Metrics) (kind : String) (success : Bool) : Metrics :=
  m.observe .renderings [kind, outcomeLabel success]

def observeExecution (m : Metrics) (mode : String) (success : Bool) : Metrics :=
  m.observe .executions [mode, outcomeLabel success]

def observeLookup (m : Metrics) (result : String) : Metrics :=
  m.observe .cacheLookups [result]

def observeNotification (m : Metrics) (action : String) (success : Bool) : Metrics :=
  m.observe .notifications [action, outcomeLabel success]

/-! ### Text -/

/-- A character of a label as it is written. -/
def escapeLabelChar (c : Char) : List Char :=
  if c = '\\' then ['\\', '\\']
  else if c = '"' then ['\\', '"']
  else if c = '\n' then ['\\', 'n']
  else [c]

def escapeLabel (s : String) : String :=
  String.ofList (s.toList.flatMap escapeLabelChar)

def sampleLine (s : Sample) : String :=
  let pairs := s.family.labels.zipWith (fun name value => name ++ "=\"" ++ escapeLabel value ++ "\"")
    s.labels
  s.family.name ++ "\x7b" ++ String.intercalate "," pairs ++ "\x7d " ++ toString s.count ++ "\n"

/-- The lines of a family, none if it has no samples. -/
def familyText (m : Metrics) (family : CounterFamily) : String :=
  match m.samples.filter fun s => s.family = family with
  | [] => ""
  | samples =>
    "# HELP " ++ family.name ++ " " ++ family.help ++ "\n# TYPE " ++ family.name ++ " counter\n"
      ++ String.join (samples.map sampleLine)

def text (m : Metrics) : String :=
  String.join (CounterFamily.all.map m.familyText)

end Metrics

end CqlGateway

import CqlGateway.Cql.Identifier
import CqlGateway.Cql.Warning
import CqlGateway.Statement.Basic
import CqlGateway.Text.Sorted

/-!
# Keyspaces in CQL

A keyspace needs a replication clause, which no other dialect has. It is taken from the settings
of the gateway. Options of other dialects are reported and left out.
-/

namespace CqlGateway

/-- How new keyspaces are replicated. -/
structure Replication where
  strategy : String := ""
  factor : Int := 0
  dataCenter : String := ""
  deriving DecidableEq, Repr

namespace Replication

/-- The strategy, by default the one for a single node. -/
def strategyOrDefault (r : Replication) : String :=
  if r.strategy = "" then "SimpleStrategy" else r.strategy

/-- The number of copies, by default one. -/
def factorOrDefault (r : Replication) : Int :=
  if r.factor ≤ 0 then 1 else r.factor

def cql (r : Replication) : String :=
  let copies :=
    if r.strategyOrDefault = "NetworkTopologyStrategy" && r.dataCenter ≠ "" then
      Cql.quoteText r.dataCenter
    else
      "'replication_factor'"
  "\x7b'class': '" ++ r.strategyOrDefault ++ "', " ++ copies ++ ": "
    ++ toString r.factorOrDefault ++ "\x7d"

end Replication

def optionalText (condition : Bool) (text : String) : String :=
  if condition then text else ""

def warnOptions (options : List (String × String)) : Draft Unit :=
  Draft.warnIf (!options.isEmpty)
    (.ignoredOptions (String.intercalate ", "
      (Text.sort (options.map fun (name, _) => Text.upper name))))

def CreateKeyspace.cql (replication : Replication) (s : CreateKeyspace) : Draft String := do
  Draft.rejectIf (s.name = "") (.unnamed "CREATE KEYSPACE")
  warnOptions s.options
  return "CREATE KEYSPACE " ++ optionalText s.ifNotExists "IF NOT EXISTS "
    ++ Cql.quoteIdentifier s.name ++ " WITH replication = " ++ replication.cql

def AlterKeyspace.cql (replication : Replication) (s : AlterKeyspace) : Draft String := do
  Draft.rejectIf (s.name = "") (.unnamed "ALTER KEYSPACE")
  warnOptions s.options
  return "ALTER KEYSPACE " ++ Cql.quoteIdentifier s.name ++ " WITH replication = "
    ++ replication.cql

def DropKeyspace.cql (s : DropKeyspace) : Draft String := do
  Draft.rejectIf (s.name = "") (.unnamed "DROP KEYSPACE")
  return "DROP KEYSPACE " ++ optionalText s.ifExists "IF EXISTS " ++ Cql.quoteIdentifier s.name

def Use.cql (s : Use) : Draft String := do
  Draft.rejectIf (s.keyspace = "") (.unnamed "USE")
  return "USE " ++ Cql.quoteIdentifier s.keyspace

end CqlGateway

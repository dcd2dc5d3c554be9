import CqlGateway.Failure
import CqlGateway.Text.Case

/-!
# The cluster

The settings of a connection to the cluster are checked before it is opened: there has to be a
host, and the consistency has to be one that the cluster knows.
-/

namespace CqlGateway.Execution

/-- How many nodes have to agree. -/
inductive Consistency where
  | any
  | one
  | two
  | three
  | quorum
  | all
  | localQuorum
  | eachQuorum
  | localOne
  deriving DecidableEq, Repr

namespace Consistency

def values : List Consistency :=
  [.any, .one, .two, .three, .quorum, .all, .localQuorum, .eachQuorum, .localOne]

def name : Consistency → String
  | .any => "ANY"
  | .one => "ONE"
  | .two => "TWO"
  | .three => "THREE"
  | .quorum => "QUORUM"
  | .all => "ALL"
  | .localQuorum => "LOCAL_QUORUM"
  | .eachQuorum => "EACH_QUORUM"
  | .localOne => "LOCAL_ONE"

/-- The consistency of a name, in any letter case. -/
def ofName? (name : String) : Option Consistency :=
  values.find? (·.name = Text.upper name)

end Consistency

/-- The settings of the store. Times are in nanoseconds. -/
structure StoreSettings where
  hosts : List String := []
  keyspace : String := ""
  consistency : String := ""
  timeout : Int := 0
  connectTimeout : Int := 0
  username : String := ""
  password : String := ""
  deriving DecidableEq, Repr

/-- A name and a password. -/
structure Login where
  username : String
  password : String
  deriving DecidableEq, Repr

structure Cluster where
  hosts : List String
  keyspace : String
  consistency : Consistency
  timeout : Int
  connectTimeout : Int
  login? : Option Login
  deriving DecidableEq, Repr

/-- Eleven seconds. -/
def standardTimeout : Int := 11000000000

/-- A time that is given, or the standard one. -/
def timeoutOrStandard (t : Int) : Int :=
  if 0 < t then t else standardTimeout

/-- The consistency that is named; without a name it is the quorum. -/
def StoreSettings.consistencyOf (s : StoreSettings) : Except Failure Consistency :=
  if s.consistency = "" then .ok .quorum
  else
    match Consistency.ofName? s.consistency with
    | some c => .ok c
    | none =>
      .error (.wrapped ("invalid consistency " ++ Text.quote s.consistency)
        (.foreign ("invalid consistency " ++ Text.quote (Text.upper s.consistency))))

def StoreSettings.cluster (s : StoreSettings) : Except Failure Cluster :=
  if s.hosts.isEmpty then .error (.plain "at least one cassandra host is required")
  else
    match s.consistencyOf with
    | .error f => .error f
    | .ok c =>
      .ok {
        hosts := s.hosts
        keyspace := s.keyspace
        consistency := c
        timeout := timeoutOrStandard s.timeout
        connectTimeout := timeoutOrStandard s.connectTimeout
        login? := if s.username = "" then none else some ⟨s.username, s.password⟩ }

end CqlGateway.Execution

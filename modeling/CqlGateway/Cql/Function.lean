import CqlGateway.Text.Blank
import CqlGateway.Text.Case

/-!
# Functions

CQL has five aggregate functions and a few scalar ones. A function that CQL does not have keeps
its name.
-/

namespace CqlGateway.Cql

inductive FunctionKind where
  | unmapped
  | aggregate
  | scalar
  deriving DecidableEq, Repr

def FunctionKind.name : FunctionKind → String
  | .unmapped => "unmapped"
  | .aggregate => "aggregate"
  | .scalar => "scalar"

structure Function where
  kind : FunctionKind
  name : String
  /-- Whether the function takes no arguments whatever was passed. -/
  nullary : Bool := false
  deriving DecidableEq, Repr

namespace Function

def aggregates : List String :=
  ["COUNT", "MIN", "MAX", "SUM", "AVG"]

def scalars : List (String × Function) :=
  [("NOW", ⟨.scalar, "now", true⟩), ("CURRENT_TIMESTAMP", ⟨.scalar, "now", true⟩),
   ("CURRENT_TIME", ⟨.scalar, "now", true⟩), ("CURRENT_DATE", ⟨.scalar, "now", true⟩),
   ("LOCALTIMESTAMP", ⟨.scalar, "now", true⟩), ("LOCALTIME", ⟨.scalar, "now", true⟩),
   ("SYSDATE", ⟨.scalar, "now", true⟩), ("GETDATE", ⟨.scalar, "now", true⟩),
   ("UUID", ⟨.scalar, "uuid", true⟩), ("GEN_RANDOM_UUID", ⟨.scalar, "uuid", true⟩),
   ("NEWID", ⟨.scalar, "uuid", true⟩), ("TOKEN", ⟨.scalar, "token", false⟩),
   ("TTL", ⟨.scalar, "TTL", false⟩), ("WRITETIME", ⟨.scalar, "WRITETIME", false⟩),
   ("TOTIMESTAMP", ⟨.scalar, "toTimestamp", false⟩), ("TODATE", ⟨.scalar, "toDate", false⟩),
   ("TOUNIXTIMESTAMP", ⟨.scalar, "toUnixTimestamp", false⟩)]

/-- A name in the form in which it is looked up. -/
def key (name : String) : String :=
  Text.upper (Text.trim name)

def isAggregate (name : String) : Bool :=
  aggregates.contains (key name)

def ofName (name : String) : Function :=
  if isAggregate name then ⟨.aggregate, key name, false⟩
  else (scalars.lookup (key name)).getD ⟨.unmapped, name, false⟩

end Function

end CqlGateway.Cql

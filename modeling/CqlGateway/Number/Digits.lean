/-!
# Digits
-/

namespace CqlGateway.Digits

def value (cs : List Char) : Nat :=
  cs.foldl (fun n c => n * 10 + (c.toNat - 48)) 0

end CqlGateway.Digits

import RoleStack.Contract
import RoleStack.Table

/-!
Forwarders: how an operation called on a handle reaches the role that answers it.
-/

namespace RoleStack

/-- Where a handle looks up the role that answers for a contract. -/
structure Key where
  text : String
deriving DecidableEq

def Key.ofContract (contract : String) : Key := ⟨"role." ++ contract⟩

/-- Calls one operation of the role that is bound under a key. -/
structure Forwarder where
  contract : String
  operation : String
  arity : Nat
  key : Key
deriving DecidableEq

abbrev ForwarderTable := Table String Forwarder

end RoleStack

import RoleStack.HandleClass.Basic

/-!
Two base classes to start from.
-/

namespace RoleStack.HandleClass

/-- Two fields and nothing else. -/
def database : HandleClass :=
  .base "DBProxy" (Table.ofList [("property1", .ofNat 0), ("property2", .string "")]) [] none

/-- One field, and counts of the operations used. -/
def metered : HandleClass :=
  .base "MeteredProxy" (Table.ofList [("calls", .ofNat 0)]) [] (some Extension.fresh)

end RoleStack.HandleClass

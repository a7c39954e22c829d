import RoleStack.Handle

/-!
What is kept of one identity: its current version and the holds on it. A hold belongs to the worker
that took it, and a worker may have several.
-/

namespace RoleStack

structure Worker where
  name : String
deriving DecidableEq

structure Entry where
  current : SharedHandle
  /-- One worker for each hold, the newest first. -/
  holders : List Worker
  manipulations : UInt64
  retired : Bool
deriving DecidableEq

namespace Entry

def start (current : SharedHandle) : Entry := ⟨current, [], 0, false⟩

def touch (entry : Entry) : Entry := { entry with manipulations := entry.manipulations + 1 }

def isLocked (entry : Entry) : Bool := !entry.holders.isEmpty

def lockCount (entry : Entry) : Nat := entry.holders.length

def isHeldBy (entry : Entry) (worker : Worker) : Bool := entry.holders.contains worker

def replace (entry : Entry) (next : SharedHandle) : Entry :=
  { entry.touch with current := next }

def acquire (entry : Entry) (worker : Worker) : Entry :=
  { entry.touch with holders := worker :: entry.holders }

/-- Drops the worker's newest hold, or the newest of all if it has none. -/
def release (entry : Entry) (worker : Worker) : Entry :=
  if entry.isLocked then
    { entry.touch with
      holders := if entry.isHeldBy worker then entry.holders.erase worker else entry.holders.tail }
  else entry

def releaseAll (entry : Entry) : Entry :=
  if entry.isLocked then { entry.touch with holders := [] } else entry

/-- A retired entry has no holds and is never used for its identity again. -/
def retire (entry : Entry) : Entry := { entry with retired := true, holders := [] }

/-- Whether a reader has to wait; a worker reads past its own holds. -/
def blocksReader (entry : Entry) (worker : Worker) : Bool :=
  entry.isLocked && !entry.retired && !entry.isHeldBy worker

/-- Whether a worker that waits for all holds to go has to wait on. -/
def blocksDrain (entry : Entry) : Bool := entry.isLocked && !entry.retired

def isDrained (entry : Entry) : Bool := !entry.isLocked && !entry.retired

/-- What a reader that need not wait gets. -/
def version? (entry : Entry) : Option SharedHandle :=
  if entry.retired then none else some entry.current

end Entry

end RoleStack

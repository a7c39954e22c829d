import RoleStack.Coordinator.Entry

/-!
The coordinator keeps the current version of every identity and the holds on it. Readers wait while
others hold an identity. An entry outlives the removal of its identity for the calls still in it.
-/

namespace RoleStack

structure CoordinatorConfig where
  defaultLockTimeout : UInt64
deriving DecidableEq

/-- In milliseconds; zero stands for no limit. -/
def CoordinatorConfig.lockTimeout? (config : CoordinatorConfig) : Option UInt64 :=
  if config.defaultLockTimeout = 0 then none else some config.defaultLockTimeout

structure Coordinator where
  entries : Table Identity (Ref Entry)
  cells : Pool Entry
  manipulations : UInt64
  config : CoordinatorConfig

structure CoordinatorStats where
  entries : Nat
  locked : Nat
  manipulations : UInt64
deriving DecidableEq

namespace Coordinator

def start (config : CoordinatorConfig) : Coordinator := ⟨Table.empty, Pool.empty, 0, config⟩

def count (coordinator : Coordinator) : Coordinator :=
  { coordinator with manipulations := coordinator.manipulations + 1 }

def find? (coordinator : Coordinator) (identity : Identity) : Option (Ref Entry) :=
  coordinator.entries.get? identity

def entry? (coordinator : Coordinator) (identity : Identity) : Option Entry :=
  (coordinator.find? identity).bind coordinator.cells.get?

def setEntry (coordinator : Coordinator) (cell : Ref Entry) (entry : Entry) : Coordinator :=
  { coordinator with cells := coordinator.cells.set cell entry }

def track (coordinator : Coordinator) (entry : Entry) : Coordinator :=
  { coordinator with
    entries := coordinator.entries.insert entry.current.identity coordinator.cells.next
    cells := coordinator.cells.add entry }

def untrack (coordinator : Coordinator) (identity : Identity) : Coordinator :=
  { coordinator with entries := coordinator.entries.erase identity }

/-! ### What happens inside an entry -/

def replaceIn (coordinator : Coordinator) (cell : Ref Entry) (next : SharedHandle) :
    Option SharedHandle × Coordinator :=
  match coordinator.cells.get? cell with
  | none => (none, coordinator)
  | some entry => (some entry.current, coordinator.setEntry cell (entry.replace next))

def retireIn (coordinator : Coordinator) (cell : Ref Entry) :
    Option SharedHandle × Coordinator :=
  match coordinator.cells.get? cell with
  | none => (none, coordinator)
  | some entry => (some entry.current, coordinator.setEntry cell entry.retire)

def acquireIn (coordinator : Coordinator) (cell : Ref Entry) (worker : Worker) : Coordinator :=
  match coordinator.cells.get? cell with
  | none => coordinator
  | some entry => coordinator.setEntry cell (entry.acquire worker)

/-- Nothing is counted where there is no hold to drop. -/
def releaseIn (coordinator : Coordinator) (cell : Ref Entry) (worker : Worker) (all : Bool) :
    Bool × Coordinator :=
  match coordinator.cells.get? cell with
  | none => (false, coordinator)
  | some entry =>
      if entry.isLocked then
        let released := if all then entry.releaseAll else entry.release worker
        (true, coordinator.count.setEntry cell released)
      else (false, coordinator)

/-- The version to read, or none while the reader has to wait. -/
def readIn? (coordinator : Coordinator) (cell : Ref Entry) (worker : Worker) :
    Option (Option SharedHandle) :=
  match coordinator.cells.get? cell with
  | none => some none
  | some entry => if entry.blocksReader worker then none else some entry.version?

/-! ### Whole calls -/

/-- Makes a handle the current version of its identity, and gives the version it replaced. -/
def store (coordinator : Coordinator) (handle : SharedHandle) :
    Option SharedHandle × Coordinator :=
  let coordinator := coordinator.count
  match coordinator.find? handle.identity with
  | some cell => coordinator.replaceIn cell handle
  | none => (none, coordinator.track (Entry.start handle).touch)

/-- Removes an identity, and gives its last version. -/
def delete (coordinator : Coordinator) (identity : Identity) :
    Option SharedHandle × Coordinator :=
  match coordinator.find? identity with
  | none => (none, coordinator)
  | some cell => (coordinator.untrack identity).retireIn cell

/-- The entry of the handle's identity, tracked from now on if it was not. -/
def findOrTrack (coordinator : Coordinator) (handle : SharedHandle) : Ref Entry × Coordinator :=
  match coordinator.find? handle.identity with
  | some cell => (cell, coordinator)
  | none => (coordinator.cells.next, coordinator.track (Entry.start handle))

def lock (coordinator : Coordinator) (worker : Worker) (handle : SharedHandle) : Coordinator :=
  let (cell, coordinator) := coordinator.count.findOrTrack handle
  coordinator.acquireIn cell worker

/-- Drops one hold or all, and tells whether there was any. -/
def unlock (coordinator : Coordinator) (worker : Worker) (identity : Identity) (all : Bool) :
    Bool × Coordinator :=
  match coordinator.find? identity with
  | none => (false, coordinator)
  | some cell => coordinator.releaseIn cell worker all

/-- The version to read, or none while the reader has to wait. -/
def current? (coordinator : Coordinator) (worker : Worker) (identity : Identity) :
    Option (Option SharedHandle) :=
  match coordinator.find? identity with
  | none => some none
  | some cell => coordinator.readIn? cell worker

/-- The current version, whoever holds it. -/
def peek (coordinator : Coordinator) (identity : Identity) : Option SharedHandle :=
  (coordinator.entry? identity).map Entry.current

def contains (coordinator : Coordinator) (identity : Identity) : Bool :=
  coordinator.entries.contains identity

def isLocked (coordinator : Coordinator) (identity : Identity) : Bool :=
  ((coordinator.entry? identity).map Entry.isLocked).getD false

def lockCount (coordinator : Coordinator) (identity : Identity) : Nat :=
  ((coordinator.entry? identity).map Entry.lockCount).getD 0

def manipulationsOf (coordinator : Coordinator) (identity : Identity) : UInt64 :=
  ((coordinator.entry? identity).map Entry.manipulations).getD 0

def identities (coordinator : Coordinator) : List Identity :=
  coordinator.entries.keys.mergeSort fun first second => first.value ≤ second.value

def stats (coordinator : Coordinator) : CoordinatorStats :=
  { entries := coordinator.entries.size
    locked := (coordinator.entries.keys.filter coordinator.isLocked).length
    manipulations := coordinator.manipulations }

end Coordinator

end RoleStack

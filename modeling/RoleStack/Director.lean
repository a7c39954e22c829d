import RoleStack.Coordinator.Basic
import RoleStack.Engine

/-!
A director changes the roles of registered identities. A change reads the current version, holds it,
composes, stores the result and lets go; changes to one identity take turns at its writer lock.
-/

namespace RoleStack

inductive DirectorError where
  | unknownIdentity (identity : Identity)
  | composition (error : CompositionError)
deriving DecidableEq

def DirectorError.message : DirectorError → String
  | .unknownIdentity identity => s!"Identity {identity.display} is not registered"
  | .composition error => error.message

structure WriterLock where
  holder : Option Worker
deriving DecidableEq

/-- The writer locks. A lock that was forgotten stays with those who have it. -/
structure Writers where
  locks : Table Identity (Ref WriterLock)
  cells : Pool WriterLock

namespace Writers

def empty : Writers := ⟨Table.empty, Pool.empty⟩

/-- The lock of an identity, made if there is none. -/
def obtain (writers : Writers) (identity : Identity) : Ref WriterLock × Writers :=
  match writers.locks.get? identity with
  | some lock => (lock, writers)
  | none =>
      let lock := writers.cells.next
      (lock, ⟨writers.locks.insert identity lock, writers.cells.add ⟨none⟩⟩)

def forget (writers : Writers) (identity : Identity) : Writers :=
  { writers with locks := writers.locks.erase identity }

def isFree (writers : Writers) (lock : Ref WriterLock) : Bool :=
  match writers.cells.get? lock with
  | some found => found.holder.isNone
  | none => false

def take (writers : Writers) (lock : Ref WriterLock) (worker : Worker) : Writers :=
  { writers with cells := writers.cells.set lock ⟨some worker⟩ }

def release (writers : Writers) (lock : Ref WriterLock) : Writers :=
  { writers with cells := writers.cells.set lock ⟨none⟩ }

end Writers

inductive ChangeKind where
  | assume
  | release
  | releaseUntil
  | showMarker
  | hideMarker
deriving DecidableEq

namespace ChangeKind

def injection : ChangeKind → Injection
  | .assume => .addRole
  | .release | .releaseUntil => .removeRole
  | .showMarker => .addMarker
  | .hideMarker => .removeMarker

def scope : ChangeKind → RemovalScope
  | .releaseUntil => .until
  | _ => .layer

def operation (kind : ChangeKind) (target : SharedHandle) (role : RoleRef) : Operation :=
  Operation.queued kind.injection kind.scope target role

end ChangeKind

structure Change where
  kind : ChangeKind
  identity : Identity
  role : RoleRef
  agent : AgentId
deriving DecidableEq

namespace Change

inductive Stage where
  | begun
  | queued (lock : Ref WriterLock)
  | reading (lock : Ref WriterLock)
  /-- The entry is known, and its current version is to be read. -/
  | waiting (lock : Ref WriterLock) (cell : Ref Entry)
  | holding (lock : Ref WriterLock) (current : SharedHandle)
  | composing (lock : Ref WriterLock) (current : SharedHandle)
  | storing (lock : Ref WriterLock) (next : SharedHandle)
  | lettingGo (lock : Ref WriterLock) (result : Except DirectorError SharedHandle)
  | leaving (lock : Ref WriterLock) (result : Except DirectorError SharedHandle)
  | returned (result : Except DirectorError SharedHandle)

structure Progress where
  writers : Writers
  coordinator : Coordinator
  stage : Stage
  /-- The entry whose sleepers are woken. -/
  wakes : Option (Ref Entry)

def composed (lock : Ref WriterLock) : Except CompositionError SharedHandle → Stage
  | .ok next => .storing lock next
  | .error error => .lettingGo lock (.error (.composition error))

def unknown (change : Change) : Except DirectorError SharedHandle :=
  .error (.unknownIdentity change.identity)

/-- The next step of a change, if it can take one by itself. Composing is not its own step. -/
def step? (change : Change) (worker : Worker) (writers : Writers) (coordinator : Coordinator) :
    Stage → Option Progress
  | .begun =>
      let (lock, writers) := writers.obtain change.identity
      some ⟨writers, coordinator, .queued lock, none⟩
  | .queued lock =>
      if writers.isFree lock then
        some ⟨writers.take lock worker, coordinator, .reading lock, none⟩
      else none
  | .reading lock =>
      match coordinator.find? change.identity with
      | some cell => some ⟨writers, coordinator, .waiting lock cell, none⟩
      | none => some ⟨writers, coordinator, .leaving lock change.unknown, none⟩
  | .waiting lock cell =>
      match coordinator.readIn? cell worker with
      | none => none
      | some none => some ⟨writers, coordinator, .leaving lock change.unknown, none⟩
      | some (some current) => some ⟨writers, coordinator, .holding lock current, none⟩
  | .holding lock current =>
      some ⟨writers, coordinator.lock worker current, .composing lock current, none⟩
  | .composing _ _ => none
  | .storing lock next =>
      some ⟨writers, (coordinator.store next).2, .lettingGo lock (.ok next), none⟩
  | .lettingGo lock result =>
      let (released, coordinator) := coordinator.unlock worker change.identity false
      let wakes :=
        if released && !coordinator.isLocked change.identity then
          coordinator.find? change.identity
        else none
      some ⟨writers, coordinator, .leaving lock result, wakes⟩
  | .leaving lock result => some ⟨writers.release lock, coordinator, .returned result, none⟩
  | .returned _ => none

end Change

end RoleStack

import RoleStack.Director

/-!
# Classes as stacks of layers

What a class comes to when its names, keys and forwarders are left out: the contracts that its base
declares and, from the bottom up, the contract or marker of each layer. The changes of such a stack
say what the changes of a handle do, and when and why they are refused.
-/

namespace RoleStack

inductive Layer where
  | role (contract : Contract)
  | marker (marker : Marker)
deriving DecidableEq

namespace Layer

def declaresContract (contract : String) : Layer → Bool
  | .role declared => declared.name = contract
  | .marker _ => false

def declaresMarker (marker : String) : Layer → Bool
  | .role _ => false
  | .marker declared => declared.name = marker

end Layer

inductive Refusal where
  | missingContract
  | missingMarker
  | contractPresent
  | markerPresent
  | duplicateOperation
  | ancestryNotFound
deriving DecidableEq

/-- The kinds of causes that a stack knows; no stack has forwarders, names or state. -/
def CompositionCause.refusal? : CompositionCause → Option Refusal
  | .missingContract _ => some .missingContract
  | .missingMarker _ => some .missingMarker
  | .contractPresent .. => some .contractPresent
  | .markerPresent .. => some .markerPresent
  | .duplicateOperation .. => some .duplicateOperation
  | .ancestryNotFound .. => some .ancestryNotFound
  | .forwardersNotPrepared | .nameCollision _ | .transfer _ => none

structure LayerStack where
  /-- The contracts of the base class. -/
  declared : List String
  /-- From the bottom up. -/
  layers : List Layer
deriving DecidableEq

namespace LayerStack

def implements (stack : LayerStack) (contract : String) : Bool :=
  stack.declared.contains contract || stack.layers.any (Layer.declaresContract contract)

def hasMarker (stack : LayerStack) (marker : String) : Bool :=
  stack.layers.any (Layer.declaresMarker marker)

def push (stack : LayerStack) (layer : Layer) : LayerStack :=
  { stack with layers := stack.layers ++ [layer] }

def addContract (stack : LayerStack) (contract : Contract) : Except Refusal LayerStack :=
  if stack.implements contract.name then .error .contractPresent
  else if contract.operationNames.Nodup then .ok (stack.push (.role contract))
  else .error .duplicateOperation

def addMarker (stack : LayerStack) (marker : Marker) : Except Refusal LayerStack :=
  if stack.hasMarker marker.name then .error .markerPresent
  else .ok (stack.push (.marker marker))

/-- Takes out the one layer that matches, and leaves the others as they are. -/
def erase (stack : LayerStack) (matching : Layer → Bool) : Except Refusal LayerStack :=
  if stack.layers.any matching then .ok { stack with layers := stack.layers.eraseP matching }
  else .error .ancestryNotFound

/-- Keeps what lies below the layer of the contract. A stack without the contract only loses its top
layer, and a strict fallback refuses even that. -/
def fallBack (stack : LayerStack) (strict : Bool) (contract : String) :
    Except Refusal LayerStack :=
  if stack.declared.contains contract then .error .ancestryNotFound
  else if stack.layers.any (Layer.declaresContract contract) then
    .ok { stack with
          layers := stack.layers.takeWhile fun layer => !layer.declaresContract contract }
  else if strict || stack.layers.isEmpty then .error .ancestryNotFound
  else .ok { stack with layers := stack.layers.dropLast }

end LayerStack

def RoleRef.offeredContract (role : RoleRef) : Except Refusal Contract :=
  match role.contract with
  | some contract => .ok contract
  | none => .error .missingContract

def RoleRef.shownMarker (role : RoleRef) : Except Refusal Marker :=
  match role.marker with
  | some marker => .ok marker
  | none => .error .missingMarker

theorem RoleRef.offeredContract_eq_ok_iff {role : RoleRef} {contract : Contract} :
    role.offeredContract = .ok contract ↔ role.contract = some contract := by
  unfold offeredContract
  split
  · rename_i found hfound
    rw [hfound, Except.ok.injEq, Option.some.injEq]
  · rename_i hnone
    simp [hnone]

theorem RoleRef.shownMarker_eq_ok_iff {role : RoleRef} {marker : Marker} :
    role.shownMarker = .ok marker ↔ role.marker = some marker := by
  unfold shownMarker
  split
  · rename_i found hfound
    rw [hfound, Except.ok.injEq, Option.some.injEq]
  · rename_i hnone
    simp [hnone]

/-- What a change with a role makes of a stack. -/
def LayerStack.change (stack : LayerStack) (strict : Bool) (kind : ChangeKind) (role : RoleRef) :
    Except Refusal LayerStack :=
  match kind with
  | .assume => do
      let contract ← role.offeredContract
      stack.addContract contract
  | .release => do
      let contract ← role.offeredContract
      stack.erase (Layer.declaresContract contract.name)
  | .releaseUntil => do
      let contract ← role.offeredContract
      stack.fallBack strict contract.name
  | .showMarker => do
      let marker ← role.shownMarker
      stack.addMarker marker
  | .hideMarker => do
      let marker ← role.shownMarker
      stack.erase (Layer.declaresMarker marker.name)

namespace HandleClass

def layers : HandleClass → List Layer
  | .base .. => []
  | .roleLayer _ parent contract _ _ => parent.layers ++ [.role contract]
  | .markerLayer _ parent marker => parent.layers ++ [.marker marker]

def stack (handleClass : HandleClass) : LayerStack :=
  ⟨handleClass.root.declaredInterfaces, handleClass.layers⟩

section Levels

variable (name : String) (parent : HandleClass) (contract : Contract) (key : Key)
  (forwarders : ForwarderTable) (marker : Marker) (wanted : String)

@[simp]
theorem implements_base (layout : Table String Json) (contracts : List String)
    (extension : Option Extension) :
    (base name layout contracts extension).implements wanted = contracts.contains wanted := by
  simp [implements, levels, declaresContract]

@[simp]
theorem implements_roleLayer :
    (roleLayer name parent contract key forwarders).implements wanted =
      (decide (contract.name = wanted) || parent.implements wanted) := by
  simp [implements, levels, declaresContract]

@[simp]
theorem implements_markerLayer :
    (markerLayer name parent marker).implements wanted = parent.implements wanted := by
  simp [implements, levels, declaresContract]

@[simp]
theorem hasMarker_base (layout : Table String Json) (contracts : List String)
    (extension : Option Extension) :
    (base name layout contracts extension).hasMarker wanted = false := by
  simp [hasMarker, levels, declaresMarker]

@[simp]
theorem hasMarker_roleLayer :
    (roleLayer name parent contract key forwarders).hasMarker wanted = parent.hasMarker wanted := by
  simp [hasMarker, levels, declaresMarker]

@[simp]
theorem hasMarker_markerLayer :
    (markerLayer name parent marker).hasMarker wanted =
      (decide (marker.name = wanted) || parent.hasMarker wanted) := by
  simp [hasMarker, levels, declaresMarker]

@[simp]
theorem stack_roleLayer :
    (roleLayer name parent contract key forwarders).stack = parent.stack.push (.role contract) := rfl

@[simp]
theorem stack_markerLayer :
    (markerLayer name parent marker).stack = parent.stack.push (.marker marker) := rfl

end Levels

theorem implements_eq_stack (handleClass : HandleClass) (contract : String) :
    handleClass.implements contract = handleClass.stack.implements contract := by
  induction handleClass with
  | base => simp [stack, root, layers, LayerStack.implements, declaredInterfaces]
  | roleLayer name parent declared key forwarders ih =>
      simp [ih, LayerStack.implements, LayerStack.push, Layer.declaresContract, Bool.or_comm,
        Bool.or_left_comm]
  | markerLayer name parent marker ih =>
      simp [ih, LayerStack.implements, LayerStack.push, Layer.declaresContract]

theorem hasMarker_eq_stack (handleClass : HandleClass) (marker : String) :
    handleClass.hasMarker marker = handleClass.stack.hasMarker marker := by
  induction handleClass with
  | base => simp [stack, layers, LayerStack.hasMarker]
  | roleLayer name parent contract key forwarders ih =>
      simp [ih, LayerStack.hasMarker, LayerStack.push, Layer.declaresMarker]
  | markerLayer name parent declared ih =>
      simp [ih, LayerStack.hasMarker, LayerStack.push, Layer.declaresMarker, Bool.or_comm]

end HandleClass

end RoleStack

import RoleStack.Extension

/-!
Classes of handles. A class is a base class, or one role or marker layer over a parent class; all
that a handle can do follows from the levels of its class.
-/

namespace RoleStack

inductive HandleClass where
  | base (name : String) (layout : Table String Json) (contracts : List String)
      (extension : Option Extension)
  | roleLayer (name : String) (parent : HandleClass) (contract : Contract) (key : Key)
      (forwarders : ForwarderTable)
  | markerLayer (name : String) (parent : HandleClass) (marker : Marker)

namespace HandleClass

def name : HandleClass → String
  | .base name .. => name
  | .roleLayer name .. => name
  | .markerLayer name .. => name

def parent? : HandleClass → Option HandleClass
  | .base .. => none
  | .roleLayer _ parent .. => some parent
  | .markerLayer _ parent _ => some parent

def isBase : HandleClass → Bool
  | .base .. => true
  | .roleLayer .. | .markerLayer .. => false

/-- The class and its ancestors, the most derived first. -/
def levels : HandleClass → List HandleClass
  | .base name layout contracts extension => [.base name layout contracts extension]
  | .roleLayer name parent contract key forwarders =>
      .roleLayer name parent contract key forwarders :: parent.levels
  | .markerLayer name parent marker => .markerLayer name parent marker :: parent.levels

def depth : HandleClass → Nat
  | .base .. => 0
  | .roleLayer _ parent .. => parent.depth + 1
  | .markerLayer _ parent _ => parent.depth + 1

def root : HandleClass → HandleClass
  | .base name layout contracts extension => .base name layout contracts extension
  | .roleLayer _ parent .. => parent.root
  | .markerLayer _ parent _ => parent.root

def layout : HandleClass → Table String Json
  | .base _ layout _ _ => layout
  | .roleLayer _ parent .. => parent.layout
  | .markerLayer _ parent _ => parent.layout

/-- The extended state that a new handle starts with. -/
def extension? : HandleClass → Option Extension
  | .base _ _ _ extension => extension
  | .roleLayer _ parent .. => parent.extension?
  | .markerLayer _ parent _ => parent.extension?

/-- The contracts and markers that this level itself declares. -/
def declaredInterfaces : HandleClass → List String
  | .base _ _ contracts _ => contracts
  | .roleLayer _ _ contract _ _ => [contract.name]
  | .markerLayer _ _ marker => [marker.name]

def declaresContract (contract : String) : HandleClass → Bool
  | .base _ _ contracts _ => contracts.contains contract
  | .roleLayer _ _ declared _ _ => declared.name = contract
  | .markerLayer .. => false

def declaresMarker (marker : String) : HandleClass → Bool
  | .markerLayer _ _ declared => declared.name = marker
  | .base .. | .roleLayer .. => false

def implements (handleClass : HandleClass) (contract : String) : Bool :=
  handleClass.levels.any (declaresContract contract)

def hasMarker (handleClass : HandleClass) (marker : String) : Bool :=
  handleClass.levels.any (declaresMarker marker)

def ownForwarders : HandleClass → ForwarderTable
  | .roleLayer _ _ _ _ forwarders => forwarders
  | .base .. | .markerLayer .. => Table.empty

/-- The forwarder of the most derived level that has one for the operation. -/
def findForwarder? (handleClass : HandleClass) (operation : String) : Option Forwarder :=
  handleClass.levels.findSome? fun level => level.ownForwarders.get? operation

def ownKey? : HandleClass → Option Key
  | .roleLayer _ _ _ key _ => some key
  | .base .. | .markerLayer .. => none

/-- The keys of the role layers, each once, whatever keys their forwarders use. -/
def referencedKeys (handleClass : HandleClass) : List Key :=
  (handleClass.levels.filterMap ownKey?).eraseDups

/-- Classes are the same when their names are. -/
def sameAs (handleClass other : HandleClass) : Bool :=
  handleClass.name = other.name

def derivesFrom (handleClass other : HandleClass) : Bool :=
  handleClass.levels.any (sameAs other)

theorem mem_levels_self (handleClass : HandleClass) : handleClass ∈ handleClass.levels := by
  cases handleClass <;> simp [levels]

theorem length_levels (handleClass : HandleClass) :
    handleClass.levels.length = handleClass.depth + 1 := by
  induction handleClass with
  | base => rfl
  | roleLayer _ _ _ _ _ ih => simp [levels, depth, ih]
  | markerLayer _ _ _ ih => simp [levels, depth, ih]

end HandleClass

end RoleStack

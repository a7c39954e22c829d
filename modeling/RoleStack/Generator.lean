import RoleStack.Cause
import RoleStack.Contract

/-!
Generators of forwarders: one is prepared for a contract and a key, and then generates the forwarders of
a new role layer. An operation may bring its own.
-/

namespace RoleStack

inductive ForwardingError where
  | duplicateOperation (contract operation : String)
  | notPrepared
  | other (cause : CompositionCause)
deriving DecidableEq

def CompositionCause.ofForwarding : ForwardingError → CompositionCause
  | .duplicateOperation contract operation => .duplicateOperation contract operation
  | .notPrepared => .forwardersNotPrepared
  | .other cause => cause

inductive GeneratorCall where
  | prepare (contract : Contract) (key : Key)
  | generate
deriving DecidableEq

/-- What a generator does with the forwarders of the contract it was prepared for. -/
inductive GeneratorStyle where
  | delegating
  /-- Takes no notice of being prepared. -/
  | unprepared
  | only (operations : List String)
  /-- Looks every role up under the key of one contract. -/
  | rekeyed (contract : String)
  /-- Generates so many times and then no more. -/
  | limited (remaining : Nat)
  /-- Any other. What it generates, and why it fails, may depend on all the calls before, in order. -/
  | custom (answer : List GeneratorCall → Except ForwardingError ForwarderTable)
      (calls : List GeneratorCall)

structure Generator where
  style : GeneratorStyle
  prepared : Option (Contract × Key)

namespace Generator

def ofStyle (style : GeneratorStyle) : Generator := ⟨style, none⟩

def default : Generator := ofStyle .delegating

/-- Only the contract and key prepared last count. -/
def prepare (generator : Generator) (contract : Contract) (key : Key) : Generator :=
  match generator.style with
  | .unprepared => generator
  | .custom answer calls =>
      { generator with style := .custom answer (calls ++ [.prepare contract key]) }
  | _ => { generator with prepared := some (contract, key) }

def forwarderOf (contract : Contract) (key : Key) (signature : Signature) : Forwarder :=
  { contract := contract.name, operation := signature.name, arity := signature.arity, key := key }

/-- Adds a forwarder for each operation, and stops at the first name that is taken. -/
def delegateAll (contract : Contract) (key : Key) :
    List Signature → ForwarderTable → Except ForwardingError ForwarderTable
  | [], table => .ok table
  | signature :: rest, table =>
      if table.contains signature.name then
        .error (.duplicateOperation contract.name signature.name)
      else
        delegateAll contract key rest
          (table.insert signature.name (forwarderOf contract key signature))

/-- One forwarder for each operation of the prepared contract, in its order. -/
def delegate (generator : Generator) : Except ForwardingError ForwarderTable :=
  match generator.prepared with
  | none => .error .notPrepared
  | some (contract, key) => delegateAll contract key contract.operations Table.empty

/-- The forwarders for a new role layer, with the generator afterwards. -/
def generate (generator : Generator) : Except ForwardingError (ForwarderTable × Generator) :=
  match generator.style with
  | .delegating | .unprepared => do
      let table ← generator.delegate
      return (table, generator)
  | .only operations => do
      let table ← generator.delegate
      return (⟨table.entries.filter fun entry => operations.contains entry.1⟩, generator)
  | .rekeyed contract => do
      let table ← generator.delegate
      let key := Key.ofContract contract
      return (⟨table.entries.map fun entry => (entry.1, { entry.2 with key := key })⟩, generator)
  | .limited 0 => .error .notPrepared
  | .limited (remaining + 1) => do
      let table ← generator.delegate
      return (table, { generator with style := .limited remaining })
  | .custom answer calls => do
      let table ← answer calls
      return (table, { generator with style := .custom answer (calls ++ [.generate]) })

end Generator

/-- A generator with a state of its own. -/
structure GeneratorMachine (State : Type) where
  prepare : Contract → Key → State → State
  generate : State → Except ForwardingError ForwarderTable × State

def GeneratorMachine.after {State : Type} (machine : GeneratorMachine State) (state : State) :
    GeneratorCall → State
  | .prepare contract key => machine.prepare contract key state
  | .generate => (machine.generate state).2

/-- The generator that starts in this state. -/
def Generator.ofMachine {State : Type} (machine : GeneratorMachine State) (start : State) :
    Generator :=
  ofStyle (.custom (fun calls => (machine.generate (calls.foldl machine.after start)).1) [])

end RoleStack

import RoleStack.Proofs.LastingState

/-!
# Changes whatever the names

The names of made classes tell how far the counter of an engine had come, and nothing else depends on
them: on classes that differ only in the names of their layers an operation does the same, up to such
names in what it gives back. So no more than these names can tell the engines apart that made two
versions, as long as no name was taken before its turn.
-/

namespace RoleStack

theorem cases_of_map_eq {Error First Second Result : Type} {first : Except Error First}
    {second : Except Error Second} {view : First → Result} {view' : Second → Result}
    (h : first.map view = second.map view') :
    (∃ error, first = .error error ∧ second = .error error) ∨
      ∃ value value', first = .ok value ∧ second = .ok value' ∧ view value = view' value' := by
  cases first with
  | error error =>
      cases second with
      | error error' => exact .inl ⟨error, rfl, congrArg Except.error (Except.error.inj h).symm⟩
      | ok value' => cases h
  | ok value =>
      cases second with
      | error error' => cases h
      | ok value' => exact .inr ⟨value, value', rfl, rfl, Except.ok.inj h⟩

/-! ### Classes without the names of their layers -/

namespace HandleClass

/-- The class with the names of its layers left out. The base keeps its name. -/
def unnamed : HandleClass → HandleClass
  | .base name layout contracts extension => .base name layout contracts extension
  | .roleLayer _ parent contract key forwarders => .roleLayer "" parent.unnamed contract key forwarders
  | .markerLayer _ parent marker => .markerLayer "" parent.unnamed marker

@[simp]
theorem unnamed_unnamed (handleClass : HandleClass) :
    handleClass.unnamed.unnamed = handleClass.unnamed := by
  induction handleClass with
  | base => rfl
  | roleLayer name parent contract key forwarders ih => simp only [unnamed, ih]
  | markerLayer name parent marker ih => simp only [unnamed, ih]

@[simp]
theorem levels_unnamed (handleClass : HandleClass) :
    handleClass.unnamed.levels = handleClass.levels.map unnamed := by
  induction handleClass with
  | base => rfl
  | roleLayer name parent contract key forwarders ih => simp only [unnamed, levels, ih, List.map_cons]
  | markerLayer name parent marker ih => simp only [unnamed, levels, ih, List.map_cons]

@[simp]
theorem layout_unnamed (handleClass : HandleClass) :
    handleClass.unnamed.layout = handleClass.layout := by
  induction handleClass with
  | base => rfl
  | roleLayer name parent contract key forwarders ih => exact ih
  | markerLayer name parent marker ih => exact ih

@[simp]
theorem extension?_unnamed (handleClass : HandleClass) :
    handleClass.unnamed.extension? = handleClass.extension? := by
  induction handleClass with
  | base => rfl
  | roleLayer name parent contract key forwarders ih => exact ih
  | markerLayer name parent marker ih => exact ih

@[simp]
theorem declaresContract_unnamed (contract : String) (handleClass : HandleClass) :
    handleClass.unnamed.declaresContract contract = handleClass.declaresContract contract := by
  cases handleClass <;> rfl

@[simp]
theorem declaresMarker_unnamed (marker : String) (handleClass : HandleClass) :
    handleClass.unnamed.declaresMarker marker = handleClass.declaresMarker marker := by
  cases handleClass <;> rfl

@[simp]
theorem ownKey?_unnamed (handleClass : HandleClass) :
    handleClass.unnamed.ownKey? = handleClass.ownKey? := by
  cases handleClass <;> rfl

@[simp]
theorem declaredInterfaces_unnamed (handleClass : HandleClass) :
    handleClass.unnamed.declaredInterfaces = handleClass.declaredInterfaces := by
  cases handleClass <;> rfl

@[simp]
theorem parent?_unnamed (handleClass : HandleClass) :
    handleClass.unnamed.parent? = handleClass.parent?.map unnamed := by
  cases handleClass <;> rfl

@[simp]
theorem implements_unnamed (handleClass : HandleClass) (contract : String) :
    handleClass.unnamed.implements contract = handleClass.implements contract := by
  simp only [implements, levels_unnamed, List.any_map]
  congr 1
  funext level
  exact declaresContract_unnamed contract level

@[simp]
theorem hasMarker_unnamed (handleClass : HandleClass) (marker : String) :
    handleClass.unnamed.hasMarker marker = handleClass.hasMarker marker := by
  simp only [hasMarker, levels_unnamed, List.any_map]
  congr 1
  funext level
  exact declaresMarker_unnamed marker level

@[simp]
theorem referencedKeys_unnamed (handleClass : HandleClass) :
    handleClass.unnamed.referencedKeys = handleClass.referencedKeys := by
  simp only [referencedKeys, levels_unnamed, List.filterMap_map]
  congr 2
  funext level
  exact ownKey?_unnamed level

def Split.unnamed (split : Split) : Split :=
  ⟨split.base.unnamed, split.removed.unnamed, split.retained.map HandleClass.unnamed⟩

theorem splitAt?_unnamed {declares : HandleClass → Bool}
    (hdeclares : ∀ level, declares level.unnamed = declares level) (handleClass : HandleClass) :
    splitAt? declares handleClass.unnamed = (splitAt? declares handleClass).map Split.unnamed := by
  induction handleClass with
  | base => rfl
  | roleLayer name parent contract key forwarders ih =>
      have hlevel := hdeclares (.roleLayer name parent contract key forwarders)
      simp only [unnamed] at hlevel
      simp only [unnamed, splitAt?, hlevel, ih]
      split
      · rfl
      · cases splitAt? declares parent with
        | none => rfl
        | some split => simp [Split.unnamed, unnamed]
  | markerLayer name parent marker ih =>
      have hlevel := hdeclares (.markerLayer name parent marker)
      simp only [unnamed] at hlevel
      simp only [unnamed, splitAt?, hlevel, ih]
      split
      · rfl
      · cases splitAt? declares parent with
        | none => rfl
        | some split => simp [Split.unnamed, unnamed]

theorem nearestWithout?_unnamed (contract : String) (handleClass : HandleClass) :
    nearestWithout? contract handleClass.unnamed =
      (nearestWithout? contract handleClass).map unnamed := by
  induction handleClass with
  | base name layout contracts extension =>
      simp only [unnamed, nearestWithout?]
      split <;> rfl
  | roleLayer name parent declared key forwarders ih =>
      have himplements := implements_unnamed (.roleLayer name parent declared key forwarders) contract
      simp only [unnamed] at himplements
      simp only [unnamed, nearestWithout?, himplements, ih]
      split <;> rfl
  | markerLayer name parent marker ih =>
      have himplements := implements_unnamed (.markerLayer name parent marker) contract
      simp only [unnamed] at himplements
      simp only [unnamed, nearestWithout?, himplements, ih]
      split <;> rfl

theorem fallback?_unnamed (strict : Bool) (handleClass : HandleClass) (contract : String) :
    handleClass.unnamed.fallback? strict contract =
      (handleClass.fallback? strict contract).map unnamed := by
  simp only [fallback?, declaredInterfaces_unnamed, parent?_unnamed, implements_unnamed,
    nearestWithout?_unnamed]
  split
  · cases handleClass.parent? with
    | none => rfl
    | some parent => exact nearestWithout?_unnamed contract parent
  · split <;> rfl

end HandleClass

/-! ### Plans -/

/-- The cause with the names of classes left out. -/
def CompositionCause.unnamed : CompositionCause → CompositionCause
  | .contractPresent _ contract => .contractPresent "" contract
  | .markerPresent _ marker => .markerPresent "" marker
  | .ancestryNotFound _ target => .ancestryNotFound "" target
  | .nameCollision _ => .nameCollision ""
  | cause => cause

namespace Stacking

/-- What decides how the stacking goes on. -/
def core (stacking : Stacking) : HandleClass × Generator :=
  (stacking.top.unnamed, stacking.generator)

variable {stacking stacking' : Stacking} {layer layer' : HandleClass}

theorem core_stackRole (h : stacking.core = stacking'.core) (contract : Contract) (key : Key) :
    (stacking.stackRole contract key).map core = (stacking'.stackRole contract key).map core := by
  obtain ⟨htop, hgenerator⟩ := Prod.mk.inj h
  simp only [stackRole, hgenerator]
  cases (stacking'.generator.prepare contract key).generate with
  | error error => rfl
  | ok generated => simp only [Except.map, core, push, HandleClass.unnamed, htop]

theorem core_stackMarker (h : stacking.core = stacking'.core) (marker : Marker) :
    (stacking.stackMarker marker).core = (stacking'.stackMarker marker).core := by
  obtain ⟨htop, hgenerator⟩ := Prod.mk.inj h
  simp only [stackMarker, core, push, HandleClass.unnamed, htop, hgenerator]

theorem core_restack (h : stacking.core = stacking'.core) (hlayer : layer.unnamed = layer'.unnamed) :
    (stacking.restack layer).map core = (stacking'.restack layer').map core := by
  cases layer with
  | base =>
      cases layer' with
      | base => exact congrArg Except.ok h
      | roleLayer | markerLayer => cases hlayer
  | roleLayer name parent contract key forwarders =>
      cases layer' with
      | roleLayer =>
          obtain ⟨-, -, rfl, rfl, -⟩ := HandleClass.roleLayer.inj hlayer
          exact core_stackRole h contract key
      | base | markerLayer => cases hlayer
  | markerLayer name parent marker =>
      cases layer' with
      | markerLayer =>
          obtain ⟨-, -, rfl⟩ := HandleClass.markerLayer.inj hlayer
          exact congrArg Except.ok (core_stackMarker h marker)
      | base | roleLayer => cases hlayer

theorem core_restackAll (h : stacking.core = stacking'.core) {layers layers' : List HandleClass}
    (hlayers : layers.map HandleClass.unnamed = layers'.map HandleClass.unnamed) :
    (stacking.restackAll layers).map core = (stacking'.restackAll layers').map core := by
  induction layers generalizing stacking stacking' layers' with
  | nil =>
      obtain rfl := List.map_eq_nil_iff.mp hlayers.symm
      exact congrArg Except.ok h
  | cons layer rest ih =>
      cases layers' with
      | nil => cases hlayers
      | cons layer' rest' =>
          obtain ⟨hlayer, hrest⟩ := List.cons.inj hlayers
          have hfirst := core_restack h hlayer
          simp only [restackAll]
          rcases cases_of_map_eq (core_restack h hlayer) with
            ⟨cause, hnext, hnext'⟩ | ⟨next, next', hnext, hnext', hcore⟩
          · rw [hnext, hnext']
            rfl
          · rw [hnext, hnext']
            exact ih hcore hrest

end Stacking

/-- What a plan comes to, with the names of classes left out. -/
def Plan.outline : Except CompositionCause Plan → Except CompositionCause HandleClass
  | .ok plan => .ok plan.handleClass.unnamed
  | .error cause => .error cause.unnamed

namespace Operation

variable {current current' : HandleClass}

theorem outline_planWithout (operation : Operation) (reservation reservation' : Reservation)
    (hcurrent : current.unnamed = current'.unnamed) {declares : HandleClass → Bool}
    (hdeclares : ∀ level, declares level.unnamed = declares level) (target : String) :
    Plan.outline (operation.planWithout reservation current declares target) =
      Plan.outline (operation.planWithout reservation' current' declares target) := by
  have hsplit : (current.splitAt? declares).map HandleClass.Split.unnamed =
      (current'.splitAt? declares).map HandleClass.Split.unnamed := by
    rw [← HandleClass.splitAt?_unnamed hdeclares, hcurrent, HandleClass.splitAt?_unnamed hdeclares]
  unfold planWithout
  cases hfound : current.splitAt? declares with
  | none =>
      rw [hfound] at hsplit
      rw [Option.map_eq_none_iff.mp hsplit.symm]
      rfl
  | some split =>
      rw [hfound, Option.map_some, eq_comm, Option.map_eq_some_iff] at hsplit
      obtain ⟨split', hfound', hsame⟩ := hsplit
      obtain ⟨hbase, -, hretained⟩ := HandleClass.Split.mk.inj hsame
      have hstart : (Stacking.start split.base operation.generator reservation).core =
          (Stacking.start split'.base operation.generator reservation').core :=
        Prod.ext hbase.symm rfl
      rw [hfound']
      rcases cases_of_map_eq (Stacking.core_restackAll hstart hretained.symm) with
        ⟨cause, hnext, hnext'⟩ | ⟨next, next', hnext, hnext', hcore⟩
      · simp only [hnext, hnext']
      · simp only [hnext, hnext']
        exact congrArg Except.ok (Prod.mk.inj hcore).1

/-- Operations plan the same for classes that differ in names only. -/
theorem outline_plan (operation : Operation) (strict : Bool) (reservation reservation' : Reservation)
    (hcurrent : current.unnamed = current'.unnamed) :
    Plan.outline (operation.plan strict reservation current) =
      Plan.outline (operation.plan strict reservation' current') := by
  have hstart : (Stacking.start current operation.generator reservation).core =
      (Stacking.start current' operation.generator reservation').core :=
    Prod.ext hcurrent rfl
  have himplements (contract : String) :
      current.implements contract = current'.implements contract := by
    rw [← HandleClass.implements_unnamed, hcurrent, HandleClass.implements_unnamed]
  have hmarked (marker : String) : current.hasMarker marker = current'.hasMarker marker := by
    rw [← HandleClass.hasMarker_unnamed, hcurrent, HandleClass.hasMarker_unnamed]
  unfold plan
  cases operation.injection with
  | addRole =>
      cases operation.requireContract with
      | error cause => rfl
      | ok contract =>
          simp only [bind, Except.bind, himplements]
          split
          · rfl
          · rcases cases_of_map_eq (Stacking.core_stackRole hstart contract
              (Key.ofContract contract.name)) with
              ⟨cause, hnext, hnext'⟩ | ⟨next, next', hnext, hnext', hcore⟩
            · rw [hnext, hnext']
            · rw [hnext, hnext']
              exact congrArg Except.ok (Prod.mk.inj hcore).1
  | removeRole =>
      cases operation.requireContract with
      | error cause => rfl
      | ok contract =>
          simp only [bind, Except.bind]
          cases operation.scope with
          | layer =>
              exact operation.outline_planWithout reservation reservation' hcurrent
                (HandleClass.declaresContract_unnamed contract.name) contract.name
          | «until» =>
              have hfallback : (current.fallback? strict contract.name).map HandleClass.unnamed =
                  (current'.fallback? strict contract.name).map HandleClass.unnamed := by
                rw [← HandleClass.fallback?_unnamed, hcurrent, HandleClass.fallback?_unnamed]
              cases hfound : current.fallback? strict contract.name with
              | none =>
                  rw [hfound] at hfallback
                  rw [Option.map_eq_none_iff.mp hfallback.symm]
                  rfl
              | some ancestor =>
                  rw [hfound, Option.map_some, eq_comm, Option.map_eq_some_iff] at hfallback
                  obtain ⟨ancestor', hfound', hsame⟩ := hfallback
                  rw [hfound']
                  exact congrArg Except.ok hsame.symm
  | addMarker =>
      cases operation.requireMarker with
      | error cause => rfl
      | ok marker =>
          simp only [bind, Except.bind, hmarked]
          split
          · rfl
          · exact congrArg Except.ok (Prod.mk.inj (Stacking.core_stackMarker hstart marker)).1
  | removeMarker =>
      cases operation.requireMarker with
      | error cause => rfl
      | ok marker =>
          exact operation.outline_planWithout reservation reservation' hcurrent
            (HandleClass.declaresMarker_unnamed marker.name) marker.name

end Operation

/-! ### Compositions -/

namespace Handle

def unnamed (handle : Handle) : Handle := { handle with handleClass := handle.handleClass.unnamed }

@[simp]
theorem unnamed_unnamed (handle : Handle) : handle.unnamed.unnamed = handle.unnamed := by
  simp only [unnamed, HandleClass.unnamed_unnamed]

variable {source source' destination destination' : Handle}

/-- A version differs in names only when its source and its class do. -/
theorem unnamed_absorb (hsource : source.unnamed = source'.unnamed)
    (hclass : destination.handleClass.unnamed = destination'.handleClass.unnamed)
    (hfields : destination.fields = destination'.fields)
    (hbindings : destination.bindings = destination'.bindings)
    (hextension : destination.extension = destination'.extension) :
    (absorb source destination).map unnamed = (absorb source' destination').map unnamed := by
  obtain ⟨hidentity, -, hvalues, hroles, hstate⟩ := Handle.mk.inj hsource
  have hkeys : destination.handleClass.referencedKeys = destination'.handleClass.referencedKeys := by
    rw [← HandleClass.referencedKeys_unnamed, hclass, HandleClass.referencedKeys_unnamed]
  have hfresh : destination.handleClass.extension? = destination'.handleClass.extension? := by
    rw [← HandleClass.extension?_unnamed, hclass, HandleClass.extension?_unnamed]
  have hcopied : copiedExtension source destination = copiedExtension source' destination' := by
    simp only [copiedExtension, hfresh, hstate, hextension]
  simp only [absorb, hcopied]
  cases copiedExtension source' destination' with
  | error error => rfl
  | ok extension =>
      change Except.ok (unnamed _) = Except.ok (unnamed _)
      simp only [unnamed, hidentity, hclass, hfields, hbindings, hvalues, hroles, hkeys]

end Handle

def CompositionError.unnamed : CompositionError → CompositionError
  | .failed identity injection role cause => .failed identity injection role cause.unnamed
  | .operation error => .operation error

namespace Engine

/-- What a composition gives back, with the names of classes left out. -/
def outline : Except CompositionError Handle → Except CompositionError Handle
  | .ok handle => .ok handle.unnamed
  | .error error => .error error.unnamed

variable {engine engine' : Engine} {registry registry' : Registry} {sequence sequence' : Sequence}
  {read read' : SharedHandle → Handle} {agent agent' : AgentId} {kind : ChangeKind} {role : RoleRef}
  {target target' : SharedHandle}

theorem unnamed_populate (kind : ChangeKind) (role : RoleRef)
    (hsource : (read target).unnamed = (read' target').unnamed)
    {handleClass handleClass' : HandleClass} (hclass : handleClass.unnamed = handleClass'.unnamed)
    (identity identity' : Identity) :
    ((kind.operation target role).populate read identity handleClass).map Handle.unnamed =
      ((kind.operation target' role).populate read' identity' handleClass').map Handle.unnamed := by
  have hlayout : handleClass.layout = handleClass'.layout := by
    rw [← HandleClass.layout_unnamed, hclass, HandleClass.layout_unnamed]
  have hfresh : handleClass.extension? = handleClass'.extension? := by
    rw [← HandleClass.extension?_unnamed, hclass, HandleClass.extension?_unnamed]
  have habsorb : (Handle.absorb (read target)
      ((kind.operation target role).blankDestination identity handleClass)).map Handle.unnamed =
        (Handle.absorb (read' target')
          ((kind.operation target' role).blankDestination identity' handleClass')).map
            Handle.unnamed := by
    have hbindings : ((kind.operation target role).blankDestination identity handleClass).bindings =
        ((kind.operation target' role).blankDestination identity' handleClass').bindings := by
      cases kind <;> cases hcontract : role.contract <;>
        simp only [Operation.blankDestination, ChangeKind.operation, ChangeKind.injection,
          Operation.queued, Handle.bind, Handle.blank, hcontract]
    apply Handle.unnamed_absorb hsource
    · simpa using hclass
    · rw [Operation.blankDestination_fields, hlayout, Operation.blankDestination_fields]
    · exact hbindings
    · simpa using hfresh
  rw [Operation.populate_eq, Operation.populate_eq]
  change (Except.mapError TransferError.extendedState (Handle.absorb (read target) _)).map _ =
    (Except.mapError TransferError.extendedState (Handle.absorb (read' target') _)).map _
  rcases cases_of_map_eq habsorb with
    ⟨error, hmade, hmade'⟩ | ⟨merged, merged', hmade, hmade', hsame⟩
  · rw [hmade, hmade']
  · rw [hmade, hmade']
    exact congrArg Except.ok hsame

/-- The result of a change, when no name can collide. -/
theorem outline_result (hahead : engine.namer.AheadOf registry) :
    outline (engine.compose registry sequence read agent (kind.operation target role)).result =
      match engine.planFor read (kind.operation target role) with
      | .error cause => .error (.failed target.identity kind.injection role.name cause.unnamed)
      | .ok plan =>
          match (kind.operation target role).populate read ⟨sequence.next⟩ plan.handleClass with
          | .error error =>
              .error (.failed target.identity kind.injection role.name (.transfer error))
          | .ok handle => .ok handle.unnamed := by
  cases hplan : engine.planFor read (kind.operation target role) with
  | error cause =>
      rw [compose_of_plan_eq_error rfl hplan]
      rfl
  | ok plan =>
      obtain ⟨filled, hfilled⟩ := (Operation.numbered_plan hplan).exists_registerAll hahead
      rw [compose_of_plan_eq_ok rfl hplan, carryOut]
      cases hmade : (kind.operation target role).populate read ⟨sequence.next⟩ plan.handleClass with
      | error error =>
          simp only [hmade]
          rfl
      | ok handle =>
          simp only [hmade, hfilled]
          rfl

/-- Engines with the same settings, each ahead of its registry, change versions in the same way that
differ in names only. -/
theorem outline_compose
    (hstrict : engine.config.strictRemoveUntil = engine'.config.strictRemoveUntil)
    (hahead : engine.namer.AheadOf registry) (hahead' : engine'.namer.AheadOf registry')
    (hidentity : target.identity = target'.identity)
    (hsource : (read target).unnamed = (read' target').unnamed) :
    outline (engine.compose registry sequence read agent (kind.operation target role)).result =
      outline
        (engine'.compose registry' sequence' read' agent' (kind.operation target' role)).result := by
  have hplans : Plan.outline (engine.planFor read (kind.operation target role)) =
      Plan.outline (engine'.planFor read' (kind.operation target' role)) := by
    have hclass : (read target).handleClass.unnamed = (read' target').handleClass.unnamed :=
      congrArg Handle.handleClass hsource
    have hsame := (kind.operation target role).outline_plan engine.config.strictRemoveUntil
      engine.namer.reserve engine'.namer.reserve hclass
    rw [hstrict] at hsame
    rw [planFor, hstrict]
    exact hsame
  rw [outline_result hahead, outline_result hahead', hidentity]
  cases hplan : engine.planFor read (kind.operation target role) with
  | error cause =>
      cases hplan' : engine'.planFor read' (kind.operation target' role) with
      | error cause' =>
          rw [hplan, hplan'] at hplans
          simp only [show cause.unnamed = cause'.unnamed from Except.error.inj hplans]
      | ok plan' =>
          rw [hplan, hplan'] at hplans
          cases hplans
  | ok plan =>
      cases hplan' : engine'.planFor read' (kind.operation target' role) with
      | error cause' =>
          rw [hplan, hplan'] at hplans
          cases hplans
      | ok plan' =>
          rw [hplan, hplan'] at hplans
          have hclass : plan.handleClass.unnamed = plan'.handleClass.unnamed := Except.ok.inj hplans
          rcases cases_of_map_eq
            (unnamed_populate kind role hsource hclass ⟨sequence.next⟩ ⟨sequence'.next⟩) with
            ⟨error, hmade, hmade'⟩ | ⟨made, made', hmade, hmade', hsame⟩
          · simp only [hmade, hmade']
          · simp only [hmade, hmade', hsame]

end Engine

end RoleStack

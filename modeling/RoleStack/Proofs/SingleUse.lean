import RoleStack.Proofs.Lifecycle

/-!
# Transfers

A transfer that is performed makes the destination the merge of its two sides. It is set up, performed
and emptied once, in this order, whatever is called in between, and calls that are refused leave no
trace. So an engine cannot compose by a transfer that was set up before.
-/

namespace RoleStack.Transfer

/-! ### Steps that succeed -/

section Steps

variable {transfer after : Transfer} {read : SharedHandle → Handle} {source : SharedHandle}
  {destination : Handle}

theorem setSource_eq_ok_iff :
    transfer.setSource source = .ok after ↔
      transfer.sourceSet = false ∧
        after = { transfer with source := some source, sourceSet := true } := by
  unfold setSource
  split
  · rename_i hset
    simp [hset]
  · rename_i hset
    simp [hset, eq_comm]

theorem setDestination_eq_ok_iff :
    transfer.setDestination destination = .ok after ↔
      transfer.destinationSet = false ∧
        after = { transfer with destination := some destination, destinationSet := true } := by
  unfold setDestination
  split
  · rename_i hset
    simp [hset]
  · rename_i hset
    simp [hset, eq_comm]

theorem perform_eq_ok_iff :
    transfer.perform read = .ok after ↔
      transfer.transferred = false ∧ ∃ source destination merged,
        transfer.source = some source ∧ transfer.destination = some destination ∧
          Handle.absorb (read source) destination = .ok merged ∧
          after = { transfer with destination := some merged, transferred := true } := by
  unfold perform
  split
  · rename_i htransferred
    simp [htransferred]
  · rename_i htransferred
    rw [Bool.not_eq_true] at htransferred
    split
    · rename_i hsource
      simp [hsource]
    · rename_i hdestination
      simp [hdestination]
    · rename_i source destination hsource hdestination
      cases habsorb : Handle.absorb (read source) destination with
      | error error => simp [hsource, hdestination, habsorb]
      | ok merged => simp [htransferred, hsource, hdestination, habsorb, eq_comm]

theorem takeDestination_eq_ok_iff :
    transfer.takeDestination = .ok (destination, after) ↔
      transfer.transferred = true ∧ transfer.destination = some destination ∧
        after = { transfer with destination := none } := by
  unfold takeDestination
  split
  · rename_i htransferred
    split
    · rename_i hnone
      simp [hnone]
    · rename_i found hfound
      simp [htransferred, hfound, eq_comm]
  · rename_i htransferred
    simp [htransferred]

/-- The destination gets the identity of the source and keeps its own class. Of its fields, in their
order, those that the source has take over the source's value. Its own roles stay, and where it has
none the source's are bound under the keys that its class refers to. The source is only read. -/
theorem merged_of_perform (h : transfer.perform read = .ok after) :
    ∃ source destination merged,
      transfer.source = some source ∧ transfer.destination = some destination ∧
        after = { transfer with destination := some merged, transferred := true } ∧
        merged.identity = (read source).identity ∧
        merged.handleClass = destination.handleClass ∧
        merged.fields.keys = destination.fields.keys ∧
        (∀ field, merged.fields.get? field =
          (destination.fields.get? field).map fun own =>
            ((read source).fields.get? field).getD own) ∧
        ∀ key, merged.bindings.get? key =
          (destination.bindings.get? key).or
            (if destination.handleClass.referencedKeys.contains key then
              (read source).bindings.get? key else none) := by
  obtain ⟨-, source, destination, merged, hsource, hdestination, habsorb, rfl⟩ :=
    perform_eq_ok_iff.mp h
  have hbindings := Handle.get?_bindings_of_absorb habsorb
  obtain ⟨extension, -, hmerged⟩ := Handle.exists_of_absorb habsorb
  refine ⟨source, destination, merged, hsource, hdestination, rfl, ?_, ?_, ?_, ?_, hbindings⟩
  · rw [hmerged]
  · rw [hmerged]
  · rw [hmerged]
    exact Handle.keys_mergeFields _ _
  · intro field
    rw [hmerged]
    exact Handle.get?_mergeFields _ _ field

/-- The source has a field and a role too many, lacks a field, and each side has its own auditor. -/
def overlapping : Transfer × (SharedHandle → Handle) :=
  let key (contract : Contract) : Key := .ofContract contract.name
  let administered : HandleClass :=
    .roleLayer "DBProxy_roled_1_1" (.base "DBProxy" ⟨[("port", .null), ("owner", .null)]⟩ [] none)
      Role.administration (key Role.administration) Table.empty
  let audited : HandleClass :=
    .roleLayer "DBProxy_roled_2_1" administered Role.auditing (key Role.auditing) Table.empty
  let source : Handle :=
    { identity := ⟨1⟩
      handleClass := administered
      fields := ⟨[("host", .null), ("port", .integer 5432)]⟩
      bindings := ⟨[(key Role.auditing, (Role.auditor []).reference ⟨0⟩),
        (key Role.administration, (Role.administrator true []).reference ⟨1⟩),
        (⟨"role.IBackup"⟩, (Role.auditor []).reference ⟨0⟩)]⟩
      extension := none }
  let destination := (Handle.blank ⟨2⟩ audited).bind (key Role.auditing)
    ((Role.auditor []).reference ⟨2⟩)
  (⟨some ⟨⟨0⟩, ⟨1⟩⟩, some destination, true, true, false⟩, fun _ => source)

theorem merged_of_perform_overlapping :
    ∃ merged, overlapping.1.perform overlapping.2 =
        .ok { overlapping.1 with destination := some merged, transferred := true } ∧
      merged.fields.keys = ["port", "owner"] ∧
      merged.fields.get? "port" = some (.integer 5432) ∧
      merged.fields.get? "owner" = some .null ∧
      merged.bindings.get? ⟨"role.IAuditor"⟩ = some ((Role.auditor []).reference ⟨2⟩) ∧
      merged.bindings.get? ⟨"role.IAdmin"⟩ = some ((Role.administrator true []).reference ⟨1⟩) ∧
      merged.bindings.get? ⟨"role.IBackup"⟩ = none := by
  obtain ⟨after, hperform⟩ : ∃ after, overlapping.1.perform overlapping.2 = .ok after := ⟨_, rfl⟩
  obtain ⟨source, destination, merged, hsource, hdestination, rfl, -, -, hkeys, hfields, hbindings⟩ :=
    merged_of_perform hperform
  obtain rfl := Option.some.inj hsource
  obtain rfl := Option.some.inj hdestination
  exact ⟨merged, hperform, hkeys, hfields "port", hfields "owner",
    (hbindings ⟨"role.IAuditor"⟩).trans (by decide +kernel),
    (hbindings ⟨"role.IAdmin"⟩).trans (by decide +kernel),
    (hbindings ⟨"role.IBackup"⟩).trans (by decide +kernel)⟩

end Steps

/-! ### Calls on one transfer -/

/-- What can be done with a transfer. -/
inductive Move where
  | setSource
  | setDestination
  | perform
  | takeDestination
deriving DecidableEq

/-- What must have been done before. -/
def Move.needs : Move → List Move
  | .setSource | .setDestination => []
  | .perform => [.setSource, .setDestination]
  | .takeDestination => [.perform]

inductive Call where
  | setSource (source : SharedHandle)
  | setDestination (destination : Handle)
  /-- Shared handles change between calls, so each transfer finds its own state of them. -/
  | perform (read : SharedHandle → Handle)
  | takeDestination

def Call.move : Call → Move
  | .setSource _ => .setSource
  | .setDestination _ => .setDestination
  | .perform _ => .perform
  | .takeDestination => .takeDestination

/-- The handle that the call gives back, if it gives one, and the transfer afterwards. -/
def carryOut (transfer : Transfer) : Call → Except TransferError (Option Handle × Transfer)
  | .setSource source => do
      let next ← transfer.setSource source
      return (none, next)
  | .setDestination destination => do
      let next ← transfer.setDestination destination
      return (none, next)
  | .perform read => do
      let next ← transfer.perform read
      return (none, next)
  | .takeDestination => do
      let (handle, next) ← transfer.takeDestination
      return (some handle, next)

/-! ### Changes in place -/

/-- Steps that change a transfer in place: what was changed before an error stays changed. -/
abbrev InPlace := ExceptT TransferError (StateM Transfer)

namespace InPlace

def setSource (source : SharedHandle) : InPlace Unit := do
  if (← get).sourceSet then throw .sourceSetTwice
  modify fun transfer => { transfer with source := some source }
  modify fun transfer => { transfer with sourceSet := true }

def setDestination (destination : Handle) : InPlace Unit := do
  if (← get).destinationSet then throw .destinationSetTwice
  modify fun transfer => { transfer with destination := some destination }
  modify fun transfer => { transfer with destinationSet := true }

def changeDestination (change : Handle → Handle) : InPlace Unit :=
  modify fun transfer => { transfer with destination := transfer.destination.map change }

/-- The state moves part by part, and extended state is copied aside before any of it. -/
def absorb (source destination : Handle) : InPlace Unit := do
  let inherited := Handle.inheritedBindings source.bindings destination.bindings
    destination.handleClass.referencedKeys
  match Handle.copiedExtension source destination with
  | .error error => throw (.extendedState error)
  | .ok extension =>
      changeDestination fun handle => { handle with identity := source.identity }
      changeDestination fun handle =>
        { handle with fields := Handle.mergeFields source.fields handle.fields }
      changeDestination fun handle =>
        { handle with bindings := ⟨handle.bindings.entries ++ inherited⟩ }
      changeDestination fun handle => { handle with extension := extension }

def perform (read : SharedHandle → Handle) : InPlace Unit := do
  let transfer ← get
  if transfer.transferred then throw .alreadyTransferred
  let some source := transfer.source | throw .sourceUnset
  let some destination := transfer.destination | throw .destinationUnset
  absorb (read source) destination
  modify fun transfer => { transfer with transferred := true }

def takeDestination : InPlace Handle := do
  let transfer ← get
  if !transfer.transferred then throw .notTransferred
  let some destination := transfer.destination | throw .destinationUnset
  set { transfer with destination := none }
  return destination

theorem run_absorb {transfer : Transfer} {source destination : Handle}
    (h : transfer.destination = some destination) :
    (absorb source destination).run.run transfer =
      match Handle.absorb source destination with
      | .error error => (.error (.extendedState error), transfer)
      | .ok merged => (.ok (), { transfer with destination := some merged }) := by
  obtain ⟨shared, _, sourceSet, destinationSet, transferred⟩ := transfer
  obtain rfl : _ = some destination := h
  unfold absorb Handle.absorb
  cases Handle.copiedExtension source destination with
  | error error => rfl
  | ok extension => rfl

theorem run_perform (read : SharedHandle → Handle) (transfer : Transfer) :
    (perform read).run.run transfer =
      match transfer.perform read with
      | .error error => (.error error, transfer)
      | .ok next => (.ok (), next) := by
  obtain ⟨source, destination, sourceSet, destinationSet, transferred⟩ := transfer
  cases transferred with
  | true => rfl
  | false =>
      cases source with
      | none => rfl
      | some shared =>
          cases destination with
          | none => rfl
          | some destination =>
              have hrun : (perform read).run.run
                    ⟨some shared, some destination, sourceSet, destinationSet, false⟩ =
                  (do
                    absorb (read shared) destination
                    modify fun transfer => { transfer with transferred := true } :
                      InPlace Unit).run.run
                    ⟨some shared, some destination, sourceSet, destinationSet, false⟩ := rfl
              rw [hrun, ExceptT.run_bind, StateT.run_bind, run_absorb rfl]
              simp only [Transfer.perform]
              cases Handle.absorb (read shared) destination with
              | error error => rfl
              | ok merged => rfl

end InPlace

def Call.inPlace : Call → InPlace (Option Handle)
  | .setSource source => do
      InPlace.setSource source
      return none
  | .setDestination destination => do
      InPlace.setDestination destination
      return none
  | .perform read => do
      InPlace.perform read
      return none
  | .takeDestination => do
      let destination ← InPlace.takeDestination
      return some destination

/-- The answer to a call on a transfer that is changed in place, and the transfer afterwards. -/
def respond (transfer : Transfer) (call : Call) :
    Except TransferError (Option Handle) × Transfer :=
  call.inPlace.run.run transfer

/-- In place or not, a call does the same, and one that is refused has changed nothing. -/
theorem respond_eq (transfer : Transfer) (call : Call) :
    transfer.respond call =
      match transfer.carryOut call with
      | .ok (given, next) => (.ok given, next)
      | .error error => (.error error, transfer) := by
  cases call with
  | setSource source =>
      obtain ⟨_, _, sourceSet, _, _⟩ := transfer
      cases sourceSet <;> rfl
  | setDestination destination =>
      obtain ⟨_, _, _, destinationSet, _⟩ := transfer
      cases destinationSet <;> rfl
  | perform read =>
      rw [respond, Call.inPlace, ExceptT.run_bind, StateT.run_bind, InPlace.run_perform]
      simp only [carryOut]
      cases transfer.perform read with
      | error error => rfl
      | ok next => rfl
  | takeDestination =>
      obtain ⟨_, destination, _, _, transferred⟩ := transfer
      cases transferred <;> cases destination <;> rfl

structure Exchange where
  call : Call
  reply : Except TransferError (Option Handle)

def respondAll (transfer : Transfer) : List Call → List Exchange × Transfer
  | [] => ([], transfer)
  | call :: rest =>
      let (reply, next) := transfer.respond call
      let (log, last) := next.respondAll rest
      (⟨call, reply⟩ :: log, last)

namespace Exchange

def succeeded (exchange : Exchange) : Bool := exchange.reply.isOk

def did (move : Move) (exchange : Exchange) : Bool :=
  exchange.call.move = move && exchange.succeeded

end Exchange

/-- What was done with the transfer, as it shows itself. -/
def did (transfer : Transfer) : Move → Bool
  | .setSource => transfer.sourceSet
  | .setDestination => transfer.destinationSet
  | .perform => transfer.transferred
  | .takeDestination => transfer.transferred && transfer.destination.isNone

/-- The transfer holds the sides that were set, a destination until it is taken, and only what has two
sides was performed. -/
structure Coherent (transfer : Transfer) : Prop where
  source : transfer.source.isSome = transfer.sourceSet
  destination : transfer.destination.isSome =
    (transfer.destinationSet && !transfer.did .takeDestination)
  performed : transfer.transferred = true →
    transfer.sourceSet = true ∧ transfer.destinationSet = true

theorem coherent_fresh : fresh.Coherent := ⟨rfl, rfl, fun h => by cases h⟩

/-- All that a call does when it succeeds. -/
structure Advances (transfer : Transfer) (move : Move) (next : Transfer) : Prop where
  ready : ∀ need ∈ move.needs, transfer.did need = true
  new : transfer.did move = false
  done : ∀ other, next.did other = (decide (move = other) || transfer.did other)
  coherent : next.Coherent

section Calls

variable {transfer next : Transfer} {call : Call} {given : Option Handle} {log : List Exchange}

theorem Coherent.advances (h : transfer.Coherent)
    (hcall : transfer.carryOut call = .ok (given, next)) : transfer.Advances call.move next := by
  obtain ⟨hsource, hdestination, hperformed⟩ := h
  cases call with
  | setSource source =>
      obtain ⟨after, hset, hgiven⟩ := exists_of_bind_eq_ok hcall
      obtain ⟨-, rfl⟩ := Prod.mk.inj (Except.ok.inj hgiven)
      obtain ⟨hnew, rfl⟩ := setSource_eq_ok_iff.mp hset
      refine ⟨by simp [Call.move, Move.needs], hnew, ?_, rfl, hdestination, ?_⟩
      · intro other
        cases other <;> simp [did, Call.move]
      · exact fun htransferred => ⟨rfl, (hperformed htransferred).2⟩
  | setDestination destination =>
      obtain ⟨after, hset, hgiven⟩ := exists_of_bind_eq_ok hcall
      obtain ⟨-, rfl⟩ := Prod.mk.inj (Except.ok.inj hgiven)
      obtain ⟨hnew, rfl⟩ := setDestination_eq_ok_iff.mp hset
      -- Nothing was performed yet, as that takes a destination.
      have hidle : transfer.transferred = false := by
        rw [← Bool.not_eq_true]
        intro htransferred
        rw [(hperformed htransferred).2] at hnew
        cases hnew
      refine ⟨by simp [Call.move, Move.needs], hnew, ?_, hsource, by simp [did], ?_⟩
      · intro other
        cases other <;> simp [did, Call.move, hidle]
      · exact fun htransferred => ⟨(hperformed htransferred).1, rfl⟩
  | perform read =>
      obtain ⟨after, hperform, hgiven⟩ := exists_of_bind_eq_ok hcall
      obtain ⟨-, rfl⟩ := Prod.mk.inj (Except.ok.inj hgiven)
      obtain ⟨hnew, source, destination, merged, hsome, hsome', -, rfl⟩ :=
        perform_eq_ok_iff.mp hperform
      have hset : transfer.sourceSet = true := by rw [← hsource, hsome, Option.isSome_some]
      have hset' : transfer.destinationSet = true := by
        rw [hsome', did, hnew] at hdestination
        simpa using hdestination.symm
      refine ⟨by simp [Call.move, Move.needs, did, hset, hset'], hnew, ?_, hsource,
        by simp [did, hset'], fun _ => ⟨hset, hset'⟩⟩
      intro other
      cases other <;> simp [did, Call.move, hnew]
  | takeDestination =>
      obtain ⟨⟨handle, after⟩, htake, hgiven⟩ := exists_of_bind_eq_ok hcall
      obtain ⟨-, rfl⟩ := Prod.mk.inj (Except.ok.inj hgiven)
      obtain ⟨htransferred, hsome, rfl⟩ := takeDestination_eq_ok_iff.mp htake
      refine ⟨by simp [Call.move, Move.needs, did, htransferred], by simp [did, Call.move, hsome],
        ?_, hsource, by simp [did, htransferred], hperformed⟩
      intro other
      cases other <;> simp [did, Call.move, htransferred]

/-- A call that is ready and new succeeds, unless it finds extended state that cannot be copied. -/
theorem Coherent.exists_carryOut (h : transfer.Coherent)
    (hready : ∀ need ∈ call.move.needs, transfer.did need = true)
    (hnew : transfer.did call.move = false) :
    (∃ given next, transfer.carryOut call = .ok (given, next)) ∨
      call.move = .perform ∧ ∃ error, transfer.carryOut call = .error (.extendedState error) := by
  cases call with
  | setSource source =>
      refine .inl ⟨none, { transfer with source := some source, sourceSet := true }, ?_⟩
      rw [carryOut, setSource_eq_ok_iff.mpr ⟨hnew, rfl⟩]
      rfl
  | setDestination destination =>
      refine .inl
        ⟨none, { transfer with destination := some destination, destinationSet := true }, ?_⟩
      rw [carryOut, setDestination_eq_ok_iff.mpr ⟨hnew, rfl⟩]
      rfl
  | perform read =>
      have hset : transfer.sourceSet = true := hready .setSource (by simp [Call.move, Move.needs])
      have hset' : transfer.destinationSet = true :=
        hready .setDestination (by simp [Call.move, Move.needs])
      have hidle : transfer.transferred = false := hnew
      obtain ⟨source, hsource⟩ := Option.isSome_iff_exists.mp (h.source.trans hset)
      obtain ⟨destination, hdestination⟩ := Option.isSome_iff_exists.mp
        (h.destination.trans (by simp [did, hset', hidle]))
      cases habsorb : Handle.absorb (read source) destination with
      | ok merged =>
          refine .inl ⟨none, { transfer with destination := some merged, transferred := true }, ?_⟩
          rw [carryOut, perform_eq_ok_iff.mpr
            ⟨hidle, source, destination, merged, hsource, hdestination, habsorb, rfl⟩]
          rfl
      | error error =>
          refine .inr ⟨rfl, error, ?_⟩
          simp [carryOut, perform, hidle, hsource, hdestination, habsorb, bind, Except.bind]
  | takeDestination =>
      have htransferred : transfer.transferred = true :=
        hready .perform (by simp [Call.move, Move.needs])
      obtain ⟨destination, hdestination⟩ : ∃ destination, transfer.destination = some destination := by
        rw [← Option.isSome_iff_exists]
        simpa [did, Call.move, htransferred] using hnew
      refine .inl ⟨some destination, { transfer with destination := none }, ?_⟩
      rw [carryOut, takeDestination_eq_ok_iff.mpr ⟨htransferred, hdestination, rfl⟩]
      rfl

/-! ### The log of the calls -/

theorem respond_of_ok (h : transfer.carryOut call = .ok (given, next)) :
    transfer.respond call = (.ok given, next) := by
  rw [respond_eq, h]

theorem respond_of_error {error : TransferError} (h : transfer.carryOut call = .error error) :
    transfer.respond call = (.error error, transfer) := by
  rw [respond_eq, h]

theorem respond_setSource_of_set (hset : transfer.sourceSet = true) (source : SharedHandle) :
    transfer.respond (.setSource source) = (.error .sourceSetTwice, transfer) := by
  apply respond_of_error
  rw [carryOut, setSource, if_pos hset]
  rfl

theorem respond_setDestination_of_set (hset : transfer.destinationSet = true)
    (destination : Handle) :
    transfer.respond (.setDestination destination) = (.error .destinationSetTwice, transfer) := by
  apply respond_of_error
  rw [carryOut, setDestination, if_pos hset]
  rfl

theorem eq_of_respond_error {error : TransferError}
    (h : (transfer.respond call).1 = .error error) : (transfer.respond call).2 = transfer := by
  cases hcall : transfer.carryOut call with
  | error refused => rw [respond_of_error hcall]
  | ok result =>
      rw [respond_of_ok hcall] at h
      cases h

theorem Coherent.ready_of_respond_ok (h : transfer.Coherent)
    (hcall : (transfer.respond call).1 = .ok given) :
    ∀ need ∈ call.move.needs, transfer.did need = true := by
  cases hcarried : transfer.carryOut call with
  | error error =>
      rw [respond_of_error hcarried] at hcall
      cases hcall
  | ok result => exact (h.advances hcarried).ready

/-- The transfer is coherent, and each move that it shows was made in one call of the log. -/
structure Accounts (transfer : Transfer) (log : List Exchange) : Prop
    extends transfer.Coherent where
  counts : ∀ move, log.countP (Exchange.did move) = (transfer.did move).toNat

theorem accounts_fresh : fresh.Accounts [] where
  toCoherent := coherent_fresh
  counts := by
    intro move
    cases move <;> rfl

theorem Accounts.respond (h : transfer.Accounts log) (call : Call) :
    (transfer.respond call).2.Accounts (log ++ [⟨call, (transfer.respond call).1⟩]) := by
  cases hcall : transfer.carryOut call with
  | error error =>
      rw [respond_of_error hcall]
      refine ⟨h.toCoherent, fun move => ?_⟩
      rw [List.countP_append, h.counts]
      simp [Exchange.did, Exchange.succeeded, Except.isOk, Except.toBool]
  | ok result =>
      obtain ⟨given, next⟩ := result
      have hadvances := h.toCoherent.advances hcall
      rw [respond_of_ok hcall]
      refine ⟨hadvances.coherent, fun move => ?_⟩
      rw [List.countP_append, h.counts, hadvances.done]
      by_cases hmove : call.move = move
      · rw [← hmove, hadvances.new]
        simp [Exchange.did, Exchange.succeeded, Except.isOk, Except.toBool]
      · simp [Exchange.did, hmove]

theorem Accounts.respondAll (h : transfer.Accounts log) (calls : List Call) :
    (transfer.respondAll calls).2.Accounts (log ++ (transfer.respondAll calls).1) := by
  induction calls generalizing transfer log with
  | nil => rwa [Transfer.respondAll, List.append_nil]
  | cons call rest ih =>
      have hrest := ih (h.respond call)
      rwa [List.append_assoc, List.singleton_append] at hrest

theorem Accounts.any_eq (h : transfer.Accounts log) (move : Move) :
    log.any (Exchange.did move) = transfer.did move := by
  rw [Bool.eq_iff_iff, List.any_eq_true, ← List.countP_pos_iff, h.counts]
  cases transfer.did move <;> simp

/-- Without the calls that are refused, the others are answered as before and lead to the same
transfer. -/
theorem respondAll_succeeded (transfer : Transfer) (calls : List Call) :
    transfer.respondAll
        (((transfer.respondAll calls).1.filter Exchange.succeeded).map Exchange.call) =
      ((transfer.respondAll calls).1.filter Exchange.succeeded, (transfer.respondAll calls).2) := by
  induction calls generalizing transfer with
  | nil => rfl
  | cons call rest ih =>
      simp only [respondAll]
      cases hcall : transfer.carryOut call with
      | error error =>
          rw [respond_of_error hcall, List.filter_cons_of_neg (by
            simp [Exchange.succeeded, Except.isOk, Except.toBool])]
          exact ih transfer
      | ok result =>
          obtain ⟨given, next⟩ := result
          rw [respond_of_ok hcall, List.filter_cons_of_pos rfl, List.map_cons, respondAll,
            respond_of_ok hcall]
          simp only
          rw [ih next]

end Calls

end RoleStack.Transfer

/-! ### Compositions with a transfer that was set up -/

namespace RoleStack

theorem Operation.populate_eq_violation {operation : Operation}
    (hset : operation.transfer.sourceSet = true ∨ operation.transfer.destinationSet = true)
    (read : SharedHandle → Handle) (identity : Identity) (handleClass : HandleClass) :
    ∃ violation, operation.populate read identity handleClass = .error violation ∧
      violation.isViolation = true := by
  rw [populate_eq]
  split
  · exact ⟨.sourceSetTwice, rfl, rfl⟩
  · rename_i hsource
    rw [if_pos (hset.resolve_left hsource)]
    exact ⟨.destinationSetTwice, rfl, rfl⟩

theorem Engine.compose_eq_violation {operation : Operation}
    (hset : operation.transfer.sourceSet = true ∨ operation.transfer.destinationSet = true)
    (engine : Engine) (registry : Registry) (sequence : Sequence) (read : SharedHandle → Handle)
    (agent : AgentId) :
    ∃ error, (engine.compose registry sequence read agent operation).result = .error error ∧
      (operation.status = .queued → (engine.planFor read operation).isOk = true →
        ∃ violation : TransferError, violation.isViolation = true ∧
          error = .failed operation.target.identity operation.injection operation.role.name
            (.transfer violation)) := by
  cases hresult : (engine.compose registry sequence read agent operation).result with
  | ok handle =>
      obtain ⟨plan, hcomposes⟩ := exists_of_compose_ok hresult
      obtain ⟨violation, hpopulate, -⟩ := Operation.populate_eq_violation hset read
        ⟨sequence.next⟩ plan.handleClass
      rw [hcomposes.populated] at hpopulate
      cases hpopulate
  | error error =>
      refine ⟨error, rfl, fun hqueued hplanned => ?_⟩
      cases hplan : engine.planFor read operation with
      | error cause =>
          rw [hplan] at hplanned
          cases hplanned
      | ok plan =>
          obtain ⟨violation, hpopulate, hviolation⟩ := Operation.populate_eq_violation hset read
            ⟨sequence.next⟩ plan.handleClass
          rw [compose_of_plan_eq_ok hqueued hplan, carryOut, hpopulate] at hresult
          exact ⟨violation, hviolation, (Except.error.inj hresult).symm⟩

/-- After any calls on a new transfer, each move was made once at most. A further call succeeds only
after the moves that it needs, and then, as the first of its kind, it does unless extended state
cannot be copied. A side that was set is not set again. Refused calls change nothing, so the transfer
is as if they had not been made. Once a side was set no engine composes by the transfer, and where the
plan stands it meets a violation. -/
theorem Transfer.single_use (calls : List Call) :
    let (log, transfer) := fresh.respondAll calls
    (∀ move, log.countP (Exchange.did move) ≤ 1) ∧
      (∀ call given, (transfer.respond call).1 = .ok given →
        ∀ need ∈ call.move.needs, log.any (Exchange.did need) = true) ∧
      (∀ call : Call, (∀ need ∈ call.move.needs, log.any (Exchange.did need) = true) →
        log.any (Exchange.did call.move) = false →
          (∃ given, (transfer.respond call).1 = .ok given) ∨
            call.move = .perform ∧
              ∃ error, (transfer.respond call).1 = .error (.extendedState error)) ∧
      (log.any (Exchange.did .setSource) = true → ∀ source,
        (transfer.respond (.setSource source)).1 = .error .sourceSetTwice) ∧
      (log.any (Exchange.did .setDestination) = true → ∀ destination,
        (transfer.respond (.setDestination destination)).1 = .error .destinationSetTwice) ∧
      (∀ call error, (transfer.respond call).1 = .error error →
        (transfer.respond call).2 = transfer) ∧
      fresh.respondAll ((log.filter Exchange.succeeded).map Exchange.call) =
        (log.filter Exchange.succeeded, transfer) ∧
      (log.any (Exchange.did .setSource) = true ∨ log.any (Exchange.did .setDestination) = true →
        ∀ (engine : Engine) (registry : Registry) (sequence : Sequence)
          (read : SharedHandle → Handle) (agent : AgentId) (operation : Operation),
          operation.transfer = transfer →
            ∃ error, (engine.compose registry sequence read agent operation).result = .error error ∧
              (operation.status = .queued → (engine.planFor read operation).isOk = true →
                ∃ violation : TransferError, violation.isViolation = true ∧
                  error = .failed operation.target.identity operation.injection
                    operation.role.name (.transfer violation))) := by
  have haccounts : (fresh.respondAll calls).2.Accounts (fresh.respondAll calls).1 :=
    accounts_fresh.respondAll calls
  have hsucceeded := respondAll_succeeded fresh calls
  generalize fresh.respondAll calls = history at haccounts hsucceeded ⊢
  obtain ⟨log, transfer⟩ := history
  simp only at haccounts hsucceeded ⊢
  simp only [haccounts.any_eq]
  refine ⟨?_, ?_, ?_, ?_, ?_, ?_, hsucceeded, ?_⟩
  · intro move
    rw [haccounts.counts]
    exact Bool.toNat_le _
  · intro call given hgiven
    exact haccounts.toCoherent.ready_of_respond_ok hgiven
  · intro call hready hnew
    obtain ⟨given, next, hcall⟩ | ⟨hmove, error, hcall⟩ :=
      haccounts.toCoherent.exists_carryOut hready hnew
    · exact .inl ⟨given, by rw [respond_of_ok hcall]⟩
    · exact .inr ⟨hmove, error, by rw [respond_of_error hcall]⟩
  · intro hset source
    rw [respond_setSource_of_set hset]
  · intro hset destination
    rw [respond_setDestination_of_set hset]
  · intro call error herror
    exact eq_of_respond_error herror
  · rintro hset engine registry sequence read agent operation rfl
    exact Engine.compose_eq_violation hset engine registry sequence read agent

/-- Too early, then in order, then a side once more. -/
example (source : SharedHandle) :
    let handle := Handle.blank ⟨1⟩ (.base "DBProxy" Table.empty [] none)
    let perform : Transfer.Call := .perform fun _ => handle
    (Transfer.fresh.respondAll [.setSource source, perform, .setDestination handle, perform,
      .takeDestination, .setDestination handle]).1.map Transfer.Exchange.succeeded =
        [true, false, true, true, true, false] := rfl

end RoleStack

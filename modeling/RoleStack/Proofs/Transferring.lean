import RoleStack.Engine
import RoleStack.Proofs.Naming

/-!
# Moving the state across

What a new version takes over: the identity, the values of the fields, the roles under the keys its
class refers to, and the extended state. Nothing but extended state that cannot be copied, or a
transfer that was used before, can keep the state from moving.
-/

namespace RoleStack

namespace Table

variable {Key Value : Type} [DecidableEq Key]

theorem lookupEntry_append (key : Key) (first second : List (Key × Value)) :
    lookupEntry key (first ++ second) = (lookupEntry key first).or (lookupEntry key second) := by
  induction first with
  | nil => rfl
  | cons entry rest ih =>
      obtain ⟨other, value⟩ := entry
      simp only [List.cons_append, lookupEntry, ih]
      split <;> rfl

theorem lookupEntry_filter (key : Key) (kept : Key → Bool) (entries : List (Key × Value)) :
    lookupEntry key (entries.filter fun entry => kept entry.1) =
      if kept key then lookupEntry key entries else none := by
  induction entries with
  | nil => simp [lookupEntry]
  | cons entry rest ih =>
      obtain ⟨other, value⟩ := entry
      by_cases hother : other = key
      · subst hother
        cases hkept : kept other <;> simp [lookupEntry, hkept, ih]
      · cases hkept : kept other <;> simp [lookupEntry, hkept, hother, ih]

end Table

/-! ### Extended state -/

namespace Extension

variable {fresh state copied : Extension} {times : Nat}

/-- The state can be copied into a fresh one so many times in a row, each time from the last copy. -/
def CopiesFor (fresh : Extension) : Nat → Extension → Prop
  | 0, _ => True
  | times + 1, state => ∃ copied, state.copyInto fresh = .ok copied ∧ fresh.CopiesFor times copied

theorem CopiesFor.of_succ (h : fresh.CopiesFor (times + 1) state) : fresh.CopiesFor times state := by
  induction times generalizing state with
  | zero => trivial
  | succ times ih =>
      obtain ⟨copied, hcopied, hlater⟩ := h
      exact ⟨copied, hcopied, ih hlater⟩

theorem CopiesFor.mono {fewer : Nat} (h : fresh.CopiesFor times state) (hle : fewer ≤ times) :
    fresh.CopiesFor fewer state := by
  induction hle with
  | refl => exact h
  | step _ ih => exact ih h.of_succ

/-- What could be copied into a fresh one can be copied again. -/
def Steady (fresh : Extension) : Prop :=
  ∀ content copied, fresh.copy content fresh.content = .ok copied →
    ∃ again, fresh.copy copied fresh.content = .ok again

/-- A copy in a fresh one holds what the original does. -/
def Faithful (fresh : Extension) : Prop :=
  ∀ content copied, fresh.copy content fresh.content = .ok copied → copied = content

theorem Faithful.steady (h : fresh.Faithful) : fresh.Steady := by
  intro content copied hcopied
  obtain rfl := h content copied hcopied
  exact ⟨_, hcopied⟩

theorem copyInto_eq_ok_iff : state.copyInto fresh = .ok copied ↔
    ∃ content, state.copy state.content fresh.content = .ok content ∧
      copied = { fresh with content := content } := by
  unfold copyInto
  cases state.copy state.content fresh.content with
  | error error => simp
  | ok content => simp [eq_comm]

theorem copy_of_copyInto (h : state.copyInto fresh = .ok copied) : copied.copy = fresh.copy := by
  obtain ⟨content, -, rfl⟩ := copyInto_eq_ok_iff.mp h
  rfl

theorem Faithful.eq_of_copyInto (hfaithful : fresh.Faithful) (hkind : state.copy = fresh.copy)
    (h : state.copyInto fresh = .ok copied) : copied = state := by
  obtain ⟨content, hcontent, rfl⟩ := copyInto_eq_ok_iff.mp h
  rw [hkind] at hcontent
  obtain rfl := hfaithful _ _ hcontent
  rw [← hkind]

theorem Steady.copiesFor (hsteady : fresh.Steady) (hkind : state.copy = fresh.copy)
    (h : state.copyInto fresh = .ok copied) (times : Nat) : fresh.CopiesFor times copied := by
  induction times generalizing state copied with
  | zero => trivial
  | succ times ih =>
      obtain ⟨content, hcontent, rfl⟩ := copyInto_eq_ok_iff.mp h
      rw [hkind] at hcontent
      obtain ⟨again, hagain⟩ := hsteady _ _ hcontent
      let copied : Extension := { fresh with content := content }
      have hcopied : copied.copyInto fresh = .ok { fresh with content := again } :=
        copyInto_eq_ok_iff.mpr ⟨again, hagain, rfl⟩
      have hkind' : copied.copy = fresh.copy := rfl
      exact ⟨_, hcopied, ih hkind' hcopied⟩

/-- A fresh one that can be copied into another can be copied on and on. -/
theorem Steady.copiesFor_self (hsteady : fresh.Steady) (h : fresh.copyInto fresh = .ok copied)
    (times : Nat) : fresh.CopiesFor times fresh := by
  cases times with
  | zero => trivial
  | succ times => exact ⟨copied, h, hsteady.copiesFor rfl h times⟩

@[simp]
theorem copy_record (extension : Extension) (operation : String) :
    (extension.record operation).copy = extension.copy := by
  unfold record
  split <;> rfl

theorem faithful_usage (counts : Table String Nat) : (usage counts).Faithful := by
  intro content copied hcopied
  cases content with
  | usage own => exact (Except.ok.inj hcopied).symm
  | other value => cases hcopied

theorem faithful_refusing (message : String) : (refusing message).Faithful :=
  fun _ _ hcopied => nomatch hcopied

/-- Being copied again and again is one thing, and holding what the original does another. -/
theorem steady_inert : inert.Steady ∧ ¬ inert.Faithful := by
  refine ⟨fun _ _ _ => ⟨_, rfl⟩, fun hfaithful => ?_⟩
  cases hfaithful (.usage .empty) (.other .null) rfl

end Extension

namespace HandleClass

@[simp]
theorem extension?_root (handleClass : HandleClass) :
    handleClass.root.extension? = handleClass.extension? := by
  induction handleClass with
  | base => rfl
  | roleLayer name parent contract key forwarders ih => exact ih
  | markerLayer name parent marker ih => exact ih

/-- Extended state that new handles of the class get, if any, can be copied again and again. -/
def CopiesExtension (handleClass : HandleClass) : Prop :=
  ∀ fresh, handleClass.extension? = some fresh → ∀ times, fresh.CopiesFor times fresh

theorem copiesExtension_of_none {handleClass : HandleClass} (h : handleClass.extension? = none) :
    handleClass.CopiesExtension := by
  intro fresh hfresh
  rw [h] at hfresh
  cases hfresh

end HandleClass

namespace Handle

/-- The state of the handle can move on so many times, each time into a new instance over the base. -/
def CopyableFor (times : Nat) (handle : Handle) : Prop :=
  ∀ fresh, handle.handleClass.extension? = some fresh →
    fresh.CopiesFor times (handle.extension.getD fresh)

def Copyable (handle : Handle) : Prop := ∀ times, handle.CopyableFor times

theorem CopyableFor.mono {handle : Handle} {fewer times : Nat} (h : handle.CopyableFor times)
    (hle : fewer ≤ times) : handle.CopyableFor fewer :=
  fun fresh hfresh => (h fresh hfresh).mono hle

theorem copyable_blank {handleClass : HandleClass} (h : handleClass.CopiesExtension)
    (identity : Identity) : (blank identity handleClass).Copyable := by
  intro times fresh hfresh
  have hown : (blank identity handleClass).extension = some fresh := hfresh
  rw [hown, Option.getD_some]
  exact h fresh hfresh times

variable {source destination merged : Handle} {times : Nat}

theorem exists_of_absorb (h : absorb source destination = .ok merged) :
    ∃ extension, copiedExtension source destination = .ok extension ∧
      merged =
        { identity := source.identity
          handleClass := destination.handleClass
          fields := mergeFields source.fields destination.fields
          bindings := ⟨destination.bindings.entries ++
            inheritedBindings source.bindings destination.bindings
              destination.handleClass.referencedKeys⟩
          extension := extension } := by
  unfold absorb at h
  cases hcopied : copiedExtension source destination with
  | error error =>
      rw [hcopied] at h
      cases h
  | ok extension =>
      rw [hcopied] at h
      exact ⟨extension, rfl, (Except.ok.inj h).symm⟩

theorem exists_absorb (hcopyable : source.CopyableFor 1)
    (hsame : destination.handleClass.extension? = source.handleClass.extension?) :
    ∃ merged, absorb source destination = .ok merged := by
  obtain ⟨extension, hextension⟩ : ∃ extension, copiedExtension source destination = .ok extension := by
    unfold copiedExtension
    split
    · rename_i fresh state current hfresh hstate hcurrent
      obtain ⟨copied, hcopied, -⟩ := hcopyable fresh (hsame ▸ hfresh)
      rw [hstate, Option.getD_some] at hcopied
      exact ⟨some copied, by rw [hcopied]; rfl⟩
    · exact ⟨_, rfl⟩
  unfold absorb
  rw [hextension]
  exact ⟨_, rfl⟩

/-- A handle that takes part in a move can move once less afterwards. -/
theorem CopyableFor.of_absorb (hcopyable : source.CopyableFor (times + 1))
    (hsame : destination.handleClass.extension? = source.handleClass.extension?)
    (hblank : destination.extension = destination.handleClass.extension?)
    (h : absorb source destination = .ok merged) : merged.CopyableFor times := by
  obtain ⟨extension, hextension, rfl⟩ := exists_of_absorb h
  intro fresh hfound
  have hcopies := hcopyable fresh (hsame ▸ hfound)
  cases hsource : source.extension with
  | none =>
      rw [hsource] at hcopies
      rw [copiedExtension, hsource, hblank, hfound] at hextension
      obtain rfl := Except.ok.inj hextension
      exact hcopies.of_succ
  | some state =>
      have hown : destination.extension = some fresh := hblank.trans hfound
      rw [hsource, Option.getD_some] at hcopies
      obtain ⟨copied, hcopied, hlater⟩ := hcopies
      rw [copiedExtension, hfound, hsource, hown] at hextension
      simp only [hcopied] at hextension
      obtain rfl := Except.ok.inj hextension
      exact hlater

/-- Own roles come first, then those of the source under the keys of the class. -/
theorem get?_bindings_of_absorb (h : absorb source destination = .ok merged) (key : Key) :
    merged.bindings.get? key =
      (destination.bindings.get? key).or
        (if destination.handleClass.referencedKeys.contains key then source.bindings.get? key
          else none) := by
  obtain ⟨extension, -, rfl⟩ := exists_of_absorb h
  simp only [Table.get?, inheritedBindings, Table.lookupEntry_append]
  rw [Table.lookupEntry_filter key fun key =>
    destination.handleClass.referencedKeys.contains key && !destination.bindings.contains key]
  simp only [Table.contains, Table.get?]
  rcases Option.eq_none_or_eq_some (Table.lookupEntry key destination.bindings.entries) with
    hown | ⟨role, hown⟩
  · simp [hown]
  · simp [hown]

end Handle

/-! ### New instances -/

/-- Nothing was set on the transfer, and it was not performed. -/
def Transfer.Unused (transfer : Transfer) : Prop :=
  transfer.sourceSet = false ∧ transfer.destinationSet = false ∧ transfer.transferred = false

theorem Transfer.unused_fresh : fresh.Unused := ⟨rfl, rfl, rfl⟩

namespace Operation

variable (operation : Operation) (read : SharedHandle → Handle) (identity : Identity)
  (handleClass : HandleClass)

@[simp]
theorem blankDestination_handleClass :
    (operation.blankDestination identity handleClass).handleClass = handleClass := by
  unfold blankDestination
  split <;> rfl

@[simp]
theorem blankDestination_extension :
    (operation.blankDestination identity handleClass).extension = handleClass.extension? := by
  unfold blankDestination
  split <;> rfl

/-- Only a transfer on which nothing was ever set moves any state. -/
theorem populate_eq :
    operation.populate read identity handleClass =
      if operation.transfer.sourceSet then .error .sourceSetTwice
      else if operation.transfer.destinationSet then .error .destinationSetTwice
      else if operation.transfer.transferred then .error .alreadyTransferred
      else
        (Handle.absorb (read operation.target)
          (operation.blankDestination identity handleClass)).mapError .extendedState := by
  unfold populate Transfer.setSource
  split
  · rfl
  rename_i hsource
  simp only [bind, Except.bind, Transfer.setDestination]
  split
  · rename_i hset
    split at hset
    · cases hset
      rename_i hdestination
      rw [if_pos hdestination]
    · cases hset
  rename_i hset
  split at hset
  · cases hset
  rename_i hdestination
  obtain rfl := Except.ok.inj hset
  rw [if_neg hdestination]
  simp only [Transfer.perform]
  by_cases htransferred : operation.transfer.transferred
  · simp [htransferred]
  · simp only [htransferred]
    cases Handle.absorb (read operation.target)
        (operation.blankDestination identity handleClass) with
    | error error => rfl
    | ok merged => rfl

variable {operation read identity handleClass}

theorem populate_eq_ok_iff {handle : Handle} :
    operation.populate read identity handleClass = .ok handle ↔
      operation.transfer.Unused ∧
        Handle.absorb (read operation.target) (operation.blankDestination identity handleClass) =
          .ok handle := by
  rw [populate_eq]
  split
  · rename_i hsource
    simp [Transfer.Unused, hsource]
  rename_i hsource
  split
  · rename_i hdestination
    simp [Transfer.Unused, hdestination]
  rename_i hdestination
  split
  · rename_i htransferred
    simp [Transfer.Unused, htransferred]
  rename_i htransferred
  rw [Bool.not_eq_true] at hsource hdestination htransferred
  have hunused : operation.transfer.Unused := ⟨hsource, hdestination, htransferred⟩
  cases Handle.absorb (read operation.target)
      (operation.blankDestination identity handleClass) with
  | error error => simp [Except.mapError]
  | ok merged => simp [Except.mapError, hunused]

end Operation

end RoleStack

import RoleStack.Proofs.SingleUse

/-!
# Extended state in a transfer

Where both sides carry extended state, the class of the destination decides. If its base makes extended
state, the source's is copied into a fresh one, which takes the place of what the destination had, or the
transfer fails with the error of the copy. If it makes none, nothing is copied: the transfer succeeds and
the destination keeps its own.
-/

namespace RoleStack

theorem Extension.content_of_copyInto_usage {counts : Table String Nat} {fresh copied : Extension}
    (h : (usage counts).copyInto fresh = .ok copied) : copied.content = .usage counts := by
  obtain ⟨content, hcontent, rfl⟩ := copyInto_eq_ok_iff.mp h
  obtain ⟨own, copy⟩ := fresh
  cases own with
  | usage start => exact (Except.ok.inj hcontent).symm
  | other value => cases hcontent

namespace Handle

variable {source destination : Handle}

theorem absorb_eq_error {error : HandleError}
    (h : copiedExtension source destination = .error error) :
    absorb source destination = .error error := by
  unfold absorb
  rw [h]
  rfl

theorem exists_absorb_of_copied {extension : Option Extension}
    (h : copiedExtension source destination = .ok extension) :
    ∃ merged, absorb source destination = .ok merged ∧ merged.extension = extension := by
  unfold absorb
  rw [h]
  exact ⟨_, rfl, rfl⟩

theorem copiedExtension_of_fresh {fresh state own : Extension}
    (hfresh : destination.handleClass.extension? = some fresh)
    (hstate : source.extension = some state) (hown : destination.extension = some own) :
    copiedExtension source destination = (state.copyInto fresh).map some := by
  rw [copiedExtension, hfresh, hstate, hown]

theorem copiedExtension_of_none (h : destination.handleClass.extension? = none) :
    copiedExtension source destination = .ok destination.extension := by
  rw [copiedExtension, h]

end Handle

namespace Transfer

variable {transfer : Transfer} {read : SharedHandle → Handle} {source : SharedHandle}
  {destination : Handle} {state own : Extension}

theorem exists_perform_of_copied (hready : transfer.transferred = false)
    (hsource : transfer.source = some source) (hdestination : transfer.destination = some destination)
    {extension : Option Extension}
    (h : Handle.copiedExtension (read source) destination = .ok extension) :
    ∃ merged, transfer.perform read =
        .ok { transfer with destination := some merged, transferred := true } ∧
      merged.extension = extension := by
  obtain ⟨merged, habsorb, hextension⟩ := Handle.exists_absorb_of_copied h
  exact ⟨merged, perform_eq_ok_iff.mpr
    ⟨hready, source, destination, merged, hsource, hdestination, habsorb, rfl⟩, hextension⟩

theorem perform_eq_error_of_copied (hready : transfer.transferred = false)
    (hsource : transfer.source = some source) (hdestination : transfer.destination = some destination)
    {error : HandleError}
    (h : Handle.copiedExtension (read source) destination = .error error) :
    transfer.perform read = .error (.extendedState error) := by
  rw [perform, hready, hsource, hdestination]
  simp [Handle.absorb_eq_error h]

/-- The transfer delegates to the source's extended state if the base of the destination's class makes
such state. Otherwise the destination keeps its own, whatever the source has. -/
theorem extended_state_of_perform (hready : transfer.transferred = false)
    (hsource : transfer.source = some source) (hdestination : transfer.destination = some destination)
    (hstate : (read source).extension = some state) (hown : destination.extension = some own) :
    (∀ fresh, destination.handleClass.extension? = some fresh →
      (∀ error, state.copyInto fresh = .error error →
        transfer.perform read = .error (.extendedState error)) ∧
      ∀ copied, state.copyInto fresh = .ok copied →
        ∃ merged, transfer.perform read =
            .ok { transfer with destination := some merged, transferred := true } ∧
          merged.extension = some copied ∧
          ∀ counts, state = .usage counts →
            ∀ operation, merged.useCount? operation = (read source).useCount? operation) ∧
    (destination.handleClass.extension? = none →
      ∃ merged, transfer.perform read =
          .ok { transfer with destination := some merged, transferred := true } ∧
        merged.extension = some own) := by
  constructor
  · intro fresh hfresh
    have hcopies := Handle.copiedExtension_of_fresh hfresh hstate hown
    constructor
    · intro error herror
      rw [herror] at hcopies
      exact perform_eq_error_of_copied hready hsource hdestination hcopies
    · intro copied hcopied
      rw [hcopied] at hcopies
      obtain ⟨merged, hperform, hextension⟩ :=
        exists_perform_of_copied hready hsource hdestination hcopies
      refine ⟨merged, hperform, hextension, ?_⟩
      rintro counts rfl operation
      simp only [Handle.useCount?, hextension, hstate, Option.bind_some, Extension.count?,
        Extension.content_of_copyInto_usage hcopied, Extension.usage]
  · intro hnone
    rw [← hown]
    exact exists_perform_of_copied hready hsource hdestination (Handle.copiedExtension_of_none hnone)

section Counting

/-- Both sides count uses, the source one query so far, over a base that makes this extended state. -/
def counting (extension : Option Extension) : Transfer × (SharedHandle → Handle) :=
  let plain : HandleClass := .base "Plain" Table.empty [] extension
  let counts (identity : Identity) : Handle :=
    { Handle.blank identity plain with extension := some .fresh }
  (⟨some ⟨⟨0⟩, ⟨1⟩⟩, some (counts ⟨2⟩), true, true, false⟩,
    fun _ => (counts ⟨1⟩).recordUse "query")

theorem extended_state_of_perform_counting :
    ∃ merged, (counting (some .fresh)).1.perform (counting (some .fresh)).2 =
        .ok { (counting (some .fresh)).1 with destination := some merged, transferred := true } ∧
      merged.useCount? "query" = some 1 := by
  have hready : (counting (some .fresh)).1.transferred = false := rfl
  have hstate : ((counting (some .fresh)).2 ⟨⟨0⟩, ⟨1⟩⟩).extension =
      some (Extension.fresh.record "query") := rfl
  have hcopied : (Extension.fresh.record "query").copyInto .fresh =
      .ok (Extension.fresh.record "query") := rfl
  obtain ⟨hdelegated, -⟩ := extended_state_of_perform hready rfl rfl hstate rfl
  obtain ⟨merged, hperform, -, hcounts⟩ := (hdelegated .fresh rfl).2 _ hcopied
  exact ⟨merged, hperform, (hcounts _ rfl "query").trans (by decide)⟩

/-- Without a base that makes it, the count is not handed on, though both sides keep one. -/
theorem extended_state_not_delegated :
    ((counting none).2 ⟨⟨0⟩, ⟨1⟩⟩).useCount? "query" = some 1 ∧
      ∃ merged, (counting none).1.perform (counting none).2 =
          .ok { (counting none).1 with destination := some merged, transferred := true } ∧
        merged.useCount? "query" = some 0 :=
  ⟨by decide, _, rfl, by decide⟩

end Counting

end Transfer

end RoleStack

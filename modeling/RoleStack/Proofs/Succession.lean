import RoleStack.Proofs.Labels
import RoleStack.Proofs.Refinement

/-!
# Changes of the latest version

A run that changes a handle, then the version that this made, and so on. If all changes succeed, the
last version stems from the same base by all of them, has the stack that they make of the first one's,
and continues the first one's state. They do succeed where those of the stack do, on an engine that is
ahead of its registry, as long as extended state goes on being copied.
-/

namespace RoleStack

/-! ### Handles that stem from a base -/

namespace Handle

theorem Continues.refl (handle : Handle) : handle.Continues handle :=
  ⟨rfl, fun _ => rfl⟩

theorem Continues.trans {first second third : Handle} (h : third.Continues second)
    (h' : second.Continues first) : third.Continues first where
  identity := h.identity.trans h'.identity
  fields := fun field => (h.fields field).trans (h'.fields field)

/-- The handle came from a fresh instance of the base by these changes, the newest first. -/
structure StemsFrom (handle : Handle) (base : HandleClass)
    (changes : List (ChangeKind × RoleRef)) : Prop where
  accounted : handle.Accounted changes
  keeps : handle.Keeps base
  extended : handle.Extended

theorem stemsFrom_blank {base : HandleClass} (hbase : base.isBase = true) (identity : Identity) :
    (blank identity base).StemsFrom base [] :=
  ⟨accounted_blank_of_isBase hbase identity, keeps_blank hbase identity, rfl⟩

variable {handle other : Handle} {changes more : List (ChangeKind × RoleRef)}

theorem Accounted.get?_bindings (h : handle.Accounted changes) {contract : Contract}
    (hcontract : .role contract ∈ handle.handleClass.layers) :
    handle.bindings.get? (.ofContract contract.name) = introducer contract.name changes := by
  obtain ⟨role, hrole, hbound⟩ := h.introduced contract hcontract
  rw [hrole, hbound]

theorem Accounted.get?_bindings_eq_none (h : handle.Accounted changes) {key : Key}
    (hkey : key ∉ handle.handleClass.referencedKeys) : handle.bindings.get? key = none := by
  rw [← Option.not_isSome_iff_eq_none]
  exact fun hbound => hkey (h.referenced key hbound)

/-- Without the layers of some keys, and with the same roles for the others, the handle has lost the
bindings under those keys and no others. -/
theorem Accounted.get?_bindings_of_kept (h : handle.Accounted changes) (h' : other.Accounted more)
    {gone : List Key}
    (hkept : ∀ contract, .role contract ∈ other.handleClass.layers ↔
      .role contract ∈ handle.handleClass.layers ∧ .ofContract contract.name ∉ gone)
    (hroles : ∀ contract, introducer contract more = introducer contract changes) (key : Key) :
    other.bindings.get? key = if key ∈ gone then none else handle.bindings.get? key := by
  by_cases hkey : key ∈ handle.handleClass.referencedKeys
  · obtain ⟨contract, hcontract, rfl⟩ := (h.regular.mem_referencedKeys_iff key).mp hkey
    split
    · rename_i hgone
      apply h'.get?_bindings_eq_none
      rw [h'.regular.mem_referencedKeys_iff]
      rintro ⟨lower, hlower, hsame⟩
      exact ((hkept lower).mp hlower).2 (hsame ▸ hgone)
    · rename_i hstays
      rw [h'.get?_bindings ((hkept contract).mpr ⟨hcontract, hstays⟩), h.get?_bindings hcontract,
        hroles]
  · have hkey' : key ∉ other.handleClass.referencedKeys := by
      rw [h'.regular.mem_referencedKeys_iff]
      rintro ⟨contract, hcontract, rfl⟩
      exact hkey ((h.regular.mem_referencedKeys_iff _).mpr
        ⟨contract, ((hkept contract).mp hcontract).1, rfl⟩)
    rw [h.get?_bindings_eq_none hkey, h'.get?_bindings_eq_none hkey', ite_self]

end Handle

theorem LayerStack.change_eq (stack : LayerStack) {kind : ChangeKind} (hkind : kind ≠ .releaseUntil)
    (strict : Bool) (role : RoleRef) : stack.change strict kind role = stack.change false kind role := by
  cases kind with
  | releaseUntil => exact absurd rfl hkind
  | assume | release | showMarker | hideMarker => rfl

namespace Engine

variable {engine : Engine} {registry : Registry} {sequence : Sequence}
  {read : SharedHandle → Handle} {agent : AgentId} {kind : ChangeKind} {target : SharedHandle}
  {role : RoleRef} {next : Handle} {base : HandleClass} {changes : List (ChangeKind × RoleRef)}

theorem stemsFrom_of_compose_ok (hstems : (read target).StemsFrom base changes)
    (h : (engine.compose registry sequence read agent (kind.operation target role)).result =
      .ok next) : next.StemsFrom base ((kind, role) :: changes) where
  accounted := hstems.accounted.change rfl h
  keeps := keeps_of_compose_ok hstems.keeps h
  extended := extended_of_compose_ok hstems.extended h

end Engine

/-! ### Changes of the latest version, in turn -/

namespace Session

/-- Each change is made to the version before, and the first that fails ends the run. -/
def changeAll (session : Session) (workshop : Ref Workshop) (agent : AgentId)
    (shared : SharedHandle) :
    List (ChangeKind × RoleRef) → Except CompositionError SharedHandle × Session
  | [] => (.ok shared, session)
  | (kind, role) :: rest =>
      match session.compose workshop agent (kind.operation shared role) with
      | (.error error, _, later) => (.error error, later)
      | (.ok next, _, later) => later.changeAll workshop agent next rest

/-- The engine can go on without a name collision, as it can when its registry is its own. -/
def Ready (session : Session) (workshop : Ref Workshop) : Prop :=
  ∃ found, session.workshops.get? workshop = some found ∧
    found.engine.namer.AheadOf (session.registry found.registry)

variable {session : Session} {workshop : Ref Workshop} {agent : AgentId} {shared last : SharedHandle}
  {changes : List (ChangeKind × RoleRef)} {kind : ChangeKind} {role : RoleRef}

theorem changeAll_of_compose_ok {next : SharedHandle}
    (h : (session.compose workshop agent (kind.operation shared role)).1 = .ok next)
    (rest : List (ChangeKind × RoleRef)) :
    session.changeAll workshop agent shared ((kind, role) :: rest) =
      (session.compose workshop agent (kind.operation shared role)).2.2.changeAll workshop agent next
        rest := by
  rw [changeAll]
  split
  · rename_i error operation later hcomposed
    rw [hcomposed] at h
    cases h
  · rename_i made operation later hcomposed
    rw [hcomposed] at h ⊢
    obtain rfl := Except.ok.inj h
    rfl

theorem exists_of_changeAll_cons {rest : List (ChangeKind × RoleRef)}
    (h : (session.changeAll workshop agent shared ((kind, role) :: rest)).1 = .ok last) :
    ∃ next, (session.compose workshop agent (kind.operation shared role)).1 = .ok next := by
  rw [changeAll] at h
  split at h
  · cases h
  · rename_i made operation later hcomposed
    exact ⟨made, by rw [hcomposed]⟩

/-- What the changes of the latest version come to, if they all succeed. -/
theorem exists_of_changeAll_ok {base : HandleClass} {earlier : List (ChangeKind × RoleRef)}
    {handle : Handle} (hhandle : session.handles.get? shared.cell = some handle)
    (hstems : handle.StemsFrom base earlier)
    (hmodeless : ∀ change ∈ changes, change.1 ≠ .releaseUntil)
    (h : (session.changeAll workshop agent shared changes).1 = .ok last) :
    ∃ next, (session.changeAll workshop agent shared changes).2.handles.get? last.cell = some next ∧
      next.StemsFrom base (changes.reverse ++ earlier) ∧
      handle.handleClass.stack.changeAll changes = .ok next.handleClass.stack ∧
      next.Continues handle ∧ handle.CopyableFor changes.length ∧
      (base.CopiesSteadily → changes ≠ [] ∨ handle.Copyable → next.Copyable) := by
  induction changes generalizing session shared earlier handle with
  | nil =>
      obtain rfl := Except.ok.inj h
      refine ⟨handle, hhandle, hstems, rfl, .refl handle, fun _ _ => trivial, ?_⟩
      intro _ hcopyable
      exact hcopyable.resolve_left fun hnil => hnil rfl
  | cons change rest ih =>
      obtain ⟨kind, role⟩ := change
      obtain ⟨made, hmade⟩ := exists_of_changeAll_cons h
      rw [changeAll_of_compose_ok hmade] at h ⊢
      obtain ⟨found, next, -, hresult, hnext⟩ := exists_of_compose_eq_ok hmade
      have hread : session.read shared = handle := read_of_get? hhandle
      subst hread
      have hstems' : next.StemsFrom base ((kind, role) :: earlier) :=
        Engine.stemsFrom_of_compose_ok hstems hresult
      obtain ⟨last, hlast, hlaststems, hstack, hcontinues, hcopies, hcopyable⟩ :=
        ih hnext hstems' (fun later hlater => hmodeless later (List.mem_cons_of_mem _ hlater)) h
      obtain ⟨reached, hreached, -, -, hsame, -⟩ :=
        Engine.exists_change_of_compose_ok hstems.accounted.regular hresult
      rw [LayerStack.change_eq _ (hmodeless _ List.mem_cons_self), ← hsame] at hreached
      have hcontinued : next.Continues (session.read shared) :=
        Engine.continues_of_compose_ok hstems.keeps hresult
      have hcopied : next.Copies (session.read shared) :=
        Engine.copies_of_compose_ok hstems.extended hresult
      have hkind : next.handleClass.extension? = (session.read shared).handleClass.extension? :=
        Engine.extension?_of_compose_ok hresult
      refine ⟨last, hlast, ?_, ?_, hcontinues.trans hcontinued, ?_, ?_⟩
      · rw [List.reverse_cons, List.append_assoc]
        exact hlaststems
      · rw [LayerStack.changeAll, hreached]
        exact hstack
      · exact hcopied.copyableFor_succ hkind hcopies
      · intro hsteady _
        exact hcopyable hsteady (.inr (hcopied.copyable hkind (hstems.keeps.copiesSteadily hsteady)))

/-- The changes succeed if those of the stack do, and the state of the handle can be copied that often. -/
theorem exists_changeAll {handle : Handle} {next : LayerStack} (hready : session.Ready workshop)
    (hhandle : session.handles.get? shared.cell = some handle)
    (regular : handle.handleClass.Regular) (hcopyable : handle.CopyableFor changes.length)
    (hmodeless : ∀ change ∈ changes, change.1 ≠ .releaseUntil)
    (h : handle.handleClass.stack.changeAll changes = .ok next) (agent : AgentId) :
    ∃ last, (session.changeAll workshop agent shared changes).1 = .ok last := by
  induction changes generalizing session shared handle with
  | nil => exact ⟨shared, rfl⟩
  | cons change rest ih =>
      obtain ⟨kind, role⟩ := change
      obtain ⟨found, hworkshop, hahead⟩ := hready
      obtain ⟨middle, hmiddle, hrest⟩ := exists_of_bind_eq_ok h
      rw [← LayerStack.change_eq _ (hmodeless _ List.mem_cons_self)
        found.engine.config.strictRemoveUntil] at hmiddle
      have hread : session.read shared = handle := read_of_get? hhandle
      subst hread
      have hcopyable₁ : (session.read shared).CopyableFor 1 := hcopyable.mono (Nat.le_add_left 1 _)
      obtain ⟨made, hmade⟩ : ∃ made,
          (session.composition found agent (kind.operation shared role)).result = .ok made :=
        Engine.exists_compose_of_change regular hcopyable₁ hahead hmiddle
      obtain ⟨reached, hreached, hregular, -, hstack, -⟩ :=
        Engine.exists_change_of_compose_ok regular hmade
      obtain rfl : middle = reached := Except.ok.inj (hmiddle.symm.trans hreached)
      obtain ⟨later, hlater, -, hahead'⟩ :=
        exists_workshop_compose hworkshop hahead agent (kind.operation shared role)
      obtain ⟨next, hnext, hget⟩ := exists_compose_of_result_ok hworkshop hmade
      rw [changeAll_of_compose_ok hnext]
      rw [← hstack] at hrest
      exact ih ⟨later, hlater, hahead'⟩ hget hregular
        (Engine.copyableFor_of_compose_ok regular hcopyable hmade)
        (fun other hother => hmodeless other (List.mem_cons_of_mem _ hother)) hrest

theorem Ready.changeAll (h : session.Ready workshop) (agent : AgentId) (shared : SharedHandle)
    (changes : List (ChangeKind × RoleRef)) :
    (session.changeAll workshop agent shared changes).2.Ready workshop := by
  induction changes generalizing session shared with
  | nil => exact h
  | cons change rest ih =>
      obtain ⟨kind, role⟩ := change
      obtain ⟨found, hworkshop, hahead⟩ := h
      obtain ⟨later, hlater, -, hahead'⟩ :=
        exists_workshop_compose hworkshop hahead agent (kind.operation shared role)
      rw [Session.changeAll]
      split
      · rename_i hcomposed
        rw [hcomposed] at hlater hahead'
        exact ⟨later, hlater, hahead'⟩
      · rename_i hcomposed
        rw [hcomposed] at hlater hahead'
        exact ih ⟨later, hlater, hahead'⟩ _

end Session

end RoleStack

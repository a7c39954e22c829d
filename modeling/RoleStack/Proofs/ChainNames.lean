import RoleStack.Proofs.LastingState
import RoleStack.Proofs.MadeNames
import RoleStack.Proofs.NameReading

/-!
# Names along a class

A composition puts the classes it makes over levels of the class that it extends, and names each after
its parent. So in a run over base classes every layer's name reads as its parent's with the number of
an engine and one of the counters that this engine used up, and what is left when all of them are read
off is the name of the base.
-/

namespace RoleStack

/-! ### What a plan puts on what -/

namespace HandleClass

variable {handleClass other parent level : HandleClass}

theorem levels_of_parent? (h : handleClass.parent? = some parent) :
    handleClass.levels = handleClass :: parent.levels := by
  cases handleClass with
  | base => cases h
  | roleLayer => rw [← Option.some.inj h, levels]
  | markerLayer => rw [← Option.some.inj h, levels]

theorem isBase_of_parent? (h : handleClass.parent? = some parent) : handleClass.isBase = false := by
  cases handleClass with
  | base => cases h
  | roleLayer => rfl
  | markerLayer => rfl

theorem suffix_of_parent? (h : handleClass.parent? = some parent) :
    parent.levels <:+ handleClass.levels := by
  rw [levels_of_parent? h]
  exact List.suffix_cons _ _

theorem suffix_of_mem_levels (h : level ∈ handleClass.levels) :
    level.levels <:+ handleClass.levels := by
  induction handleClass with
  | base =>
      obtain rfl := List.mem_singleton.mp h
      exact List.suffix_rfl
  | roleLayer name parent contract key forwarders ih =>
      rcases List.mem_cons.mp h with rfl | hbelow
      · exact List.suffix_rfl
      · exact (ih hbelow).trans (List.suffix_cons _ _)
  | markerLayer name parent marker ih =>
      rcases List.mem_cons.mp h with rfl | hbelow
      · exact List.suffix_rfl
      · exact (ih hbelow).trans (List.suffix_cons _ _)

theorem root_of_suffix (h : other.levels <:+ handleClass.levels) :
    handleClass.root = other.root := by
  obtain ⟨above, hlevels⟩ := h
  exact root_eq_of_levels hlevels.symm

theorem suffix_of_nearestWithout? {contract : String}
    (h : handleClass.nearestWithout? contract = some other) :
    other.levels <:+ handleClass.levels := by
  induction handleClass with
  | base =>
      rw [nearestWithout?] at h
      split at h
      · cases h
      · obtain rfl := Option.some.inj h
        exact List.suffix_rfl
  | roleLayer name parent declared key forwarders ih =>
      rw [nearestWithout?] at h
      split at h
      · exact (ih h).trans (List.suffix_cons _ _)
      · obtain rfl := Option.some.inj h
        exact List.suffix_rfl
  | markerLayer name parent marker ih =>
      rw [nearestWithout?] at h
      split at h
      · exact (ih h).trans (List.suffix_cons _ _)
      · obtain rfl := Option.some.inj h
        exact List.suffix_rfl

theorem suffix_of_fallback? {strict : Bool} {contract : String}
    (h : handleClass.fallback? strict contract = some other) :
    other.levels <:+ handleClass.levels := by
  unfold fallback? at h
  split at h
  · obtain ⟨parent, hparent, hother⟩ := Option.bind_eq_some_iff.mp h
    exact (suffix_of_nearestWithout? hother).trans (suffix_of_parent? hparent)
  · split at h
    · exact suffix_of_nearestWithout? h
    · cases h

theorem Split.Cuts.suffix {split : Split} {declares : HandleClass → Bool}
    (h : split.Cuts declares handleClass) : split.base.levels <:+ handleClass.levels := by
  rw [h.levels]
  exact (List.suffix_cons _ _).trans (List.suffix_append _ _)

end HandleClass

namespace Stacking

/-- The levels of the top are the classes made so far over these. -/
def RestsOn (stacking : Stacking) (below : List HandleClass) : Prop :=
  stacking.top.levels = stacking.made.reverse ++ below

variable {stacking last : Stacking} {below : List HandleClass}

theorem RestsOn.push (h : stacking.RestsOn below) {layer : HandleClass}
    (hlayer : layer.levels = layer :: stacking.top.levels) (generator : Generator) :
    (stacking.push layer generator).RestsOn below := by
  change layer.levels = (stacking.made ++ [layer]).reverse ++ below
  rw [hlayer, h, List.reverse_append]
  rfl

theorem RestsOn.stackRole (h : stacking.RestsOn below) {contract : Contract} {key : Key}
    (hlast : stacking.stackRole contract key = .ok last) : last.RestsOn below := by
  obtain ⟨forwarders, generator, -, rfl⟩ := exists_of_stackRole hlast
  exact h.push rfl generator

theorem RestsOn.restackAll (h : stacking.RestsOn below) {layers : List HandleClass}
    (hlast : stacking.restackAll layers = .ok last) : last.RestsOn below := by
  induction layers generalizing stacking with
  | nil =>
      obtain rfl := Except.ok.inj hlast
      exact h
  | cons layer rest ih =>
      obtain ⟨middle, hmiddle, hrest⟩ := exists_of_bind_eq_ok hlast
      refine ih ?_ hrest
      cases layer with
      | base =>
          obtain rfl := Except.ok.inj hmiddle
          exact h
      | roleLayer => exact h.stackRole hmiddle
      | markerLayer =>
          obtain rfl := Except.ok.inj hmiddle
          exact h.push rfl _

end Stacking

namespace Operation

variable {operation : Operation} {reservation : Reservation} {current : HandleClass} {plan : Plan}

theorem exists_kept_of_planWithout {declares : HandleClass → Bool} {target : String}
    (h : operation.planWithout reservation current declares target = .ok plan) :
    ∃ kept, kept <:+ current.levels ∧ plan.handleClass.levels = plan.made.reverse ++ kept := by
  unfold planWithout at h
  split at h
  · cases h
  · rename_i split hsplit
    obtain ⟨stacking, hstacking, hplan⟩ := exists_of_bind_eq_ok h
    obtain rfl := Except.ok.inj hplan
    have hstart : (Stacking.start split.base operation.generator reservation).RestsOn
        split.base.levels := rfl
    exact ⟨_, (HandleClass.cuts_of_splitAt? hsplit).suffix, hstart.restackAll hstacking⟩

/-- A plan leads to the classes it makes, over levels of the present class. -/
theorem exists_kept_of_plan {strict : Bool}
    (h : operation.plan strict reservation current = .ok plan) :
    ∃ kept, kept <:+ current.levels ∧ plan.handleClass.levels = plan.made.reverse ++ kept := by
  have hstart : (Stacking.start current operation.generator reservation).RestsOn current.levels :=
    rfl
  unfold Operation.plan at h
  split at h
  · obtain ⟨contract, -, h⟩ := exists_of_bind_eq_ok h
    split at h
    · cases h
    · obtain ⟨stacking, hstacking, hplan⟩ := exists_of_bind_eq_ok h
      obtain rfl := Except.ok.inj hplan
      exact ⟨_, List.suffix_rfl, hstart.stackRole hstacking⟩
  · obtain ⟨contract, -, h⟩ := exists_of_bind_eq_ok h
    split at h
    · exact exists_kept_of_planWithout h
    · split at h
      · rename_i ancestor hancestor
        obtain rfl := Except.ok.inj h
        exact ⟨_, HandleClass.suffix_of_fallback? hancestor, rfl⟩
      · cases h
  · obtain ⟨marker, -, h⟩ := exists_of_bind_eq_ok h
    split at h
    · cases h
    · obtain rfl := Except.ok.inj h
      exact ⟨_, List.suffix_rfl, hstart.push rfl operation.generator⟩
  · obtain ⟨marker, -, h⟩ := exists_of_bind_eq_ok h
    exact exists_kept_of_planWithout h

end Operation

/-! ### Roots of names -/

namespace ClassName

variable {text : String}

theorem root_of_parse?_eq_none (h : parse? text = none) : root text = text := by
  rw [parse?] at h
  rw [root, rootChars]
  split
  · exact String.ofList_toList
  · rename_i name hname
    rw [h] at hname
    cases hname

theorem root_of_parse?_eq_some {name : ClassName} (h : parse? text = some name) :
    root text = root name.base := by
  rw [parse?] at h
  rw [root, rootChars]
  split
  · rename_i hnone
    rw [h] at hnone
    cases hnone
  · rename_i found hfound
    obtain rfl := Option.some.inj (h.symm.trans hfound)
    rfl

theorem display_ne_empty (name : ClassName) : name.display ≠ "" := by
  intro hempty
  have hchars := congrArg String.toList hempty
  rw [toList_display] at hchars
  simp [padded, separator] at hchars

end ClassName

/-! ### Names by engines -/

/-- The level is named after its parent, the engine and a counter that the engine used up. -/
def Engine.Names (engine : Engine) (level : HandleClass) : Prop :=
  ∃ parent counter, level.parent? = some parent ∧ 1 ≤ counter ∧ counter ≤ engine.manipulations ∧
    level.name = (ClassName.mk parent.name counter engine.id).display

/-- The engine puts its own number into names, and counts from one on. -/
structure Engine.Counting (engine : Engine) : Prop where
  number : engine.namer.engine = engine.id
  positive : 1 ≤ engine.namer.next

namespace Session

/-- The base has a name, and engines named all layers over it. -/
structure Mirrors (session : Session) (handleClass : HandleClass) : Prop where
  root : handleClass.root.name ≠ ""
  layers : ∀ level ∈ handleClass.levels, level.isBase = false →
    ∃ workshop found, session.workshops.get? workshop = some found ∧ found.engine.Names level

/-- The engines are there later too, with the same numbers and counters as high at least. -/
def CountsOn (session later : Session) : Prop :=
  ∀ workshop found, session.workshops.get? workshop = some found →
    ∃ found', later.workshops.get? workshop = some found' ∧
      found'.engine.id = found.engine.id ∧
      found.engine.manipulations ≤ found'.engine.manipulations

variable {session later : Session} {handleClass other parent level : HandleClass}

theorem CountsOn.of_workshops_eq (h : later.workshops = session.workshops) :
    session.CountsOn later := by
  intro workshop found hworkshop
  exact ⟨found, h ▸ hworkshop, rfl, Nat.le_refl _⟩

theorem CountsOn.exists_names (h : session.CountsOn later) {workshop : Ref Workshop}
    {found : Workshop} (hworkshop : session.workshops.get? workshop = some found)
    (hnames : found.engine.Names level) :
    ∃ found', later.workshops.get? workshop = some found' ∧ found'.engine.Names level := by
  obtain ⟨found', hlater, hid, hle⟩ := h workshop found hworkshop
  obtain ⟨parent, counter, hparent, hpositive, hbound, hname⟩ := hnames
  exact ⟨found', hlater, parent, counter, hparent, hpositive, hbound.trans hle, hid ▸ hname⟩

namespace Mirrors

theorem mono (h : session.Mirrors handleClass) (hcounts : session.CountsOn later) :
    later.Mirrors handleClass where
  root := h.root
  layers := by
    intro level hlevel hlayer
    obtain ⟨workshop, found, hworkshop, hnames⟩ := h.layers level hlevel hlayer
    obtain ⟨found', hlater, hnames'⟩ := hcounts.exists_names hworkshop hnames
    exact ⟨workshop, found', hlater, hnames'⟩

theorem of_suffix (h : session.Mirrors handleClass) (hsuffix : other.levels <:+ handleClass.levels) :
    session.Mirrors other where
  root := by
    rw [← HandleClass.root_of_suffix hsuffix]
    exact h.root
  layers := fun level hlevel => h.layers level (hsuffix.subset hlevel)

theorem of_isBase (hbase : handleClass.isBase = true) (hname : handleClass.name ≠ "") :
    session.Mirrors handleClass where
  root := by rwa [HandleClass.root_of_isBase hbase]
  layers := by
    intro level hlevel hlayer
    cases handleClass with
    | base =>
        rw [List.mem_singleton.mp hlevel] at hlayer
        cases hlayer
    | roleLayer => cases hbase
    | markerLayer => cases hbase

theorem name_ne_empty (h : session.Mirrors handleClass) : handleClass.name ≠ "" := by
  cases hbase : handleClass.isBase with
  | true =>
      rw [← HandleClass.root_of_isBase hbase]
      exact h.root
  | false =>
      obtain ⟨workshop, found, -, parent, counter, -, -, -, hname⟩ :=
        h.layers handleClass handleClass.mem_levels_self hbase
      rw [hname]
      exact ClassName.display_ne_empty _

end Mirrors

/-- No counter of an engine is past 64 bits. -/
def CountersFit (session : Session) : Prop :=
  ∀ workshop found, session.workshops.get? workshop = some found →
    found.engine.manipulations < UInt64.size

/-- The name reads as the parent's, with the number of this engine and a counter it used up. -/
def NamedAfter (session : Session) (workshop : Ref Workshop) (level parent : HandleClass) : Prop :=
  ∃ found counter, session.workshops.get? workshop = some found ∧
    ClassName.parse? level.name = some ⟨parent.name, counter, found.engine.id⟩ ∧
    1 ≤ counter ∧ counter ≤ found.engine.manipulations

theorem namedAfter_of_names (hfit : session.CountersFit) {workshop : Ref Workshop} {found : Workshop}
    (hworkshop : session.workshops.get? workshop = some found) (hnames : found.engine.Names level)
    (hparent : level.parent? = some parent) (hne : parent.name ≠ "") :
    session.NamedAfter workshop level parent := by
  obtain ⟨above, counter, habove, hpositive, hbound, hname⟩ := hnames
  obtain rfl : above = parent := Option.some.inj (habove.symm.trans hparent)
  refine ⟨found, counter, hworkshop, ?_, hpositive, hbound⟩
  rw [hname]
  exact ClassName.parse?_display hne (hbound.trans_lt (hfit workshop found hworkshop))

theorem Mirrors.exists_namedAfter (h : session.Mirrors handleClass) (hfit : session.CountersFit)
    (hparent : handleClass.parent? = some parent) :
    ∃ workshop, session.NamedAfter workshop handleClass parent := by
  obtain ⟨workshop, found, hworkshop, hnames⟩ := h.layers handleClass handleClass.mem_levels_self
    (HandleClass.isBase_of_parent? hparent)
  exact ⟨workshop, namedAfter_of_names hfit hworkshop hnames hparent
    (h.of_suffix (HandleClass.suffix_of_parent? hparent)).name_ne_empty⟩

/-- Each layer takes one step of making off the name, down to the base. -/
theorem Mirrors.root_name (h : session.Mirrors handleClass) (hfit : session.CountersFit)
    (hroot : ClassName.parse? handleClass.root.name = none) :
    ClassName.root handleClass.name = handleClass.root.name := by
  have hstep : ∀ {layer parent : HandleClass}, session.Mirrors layer → layer.parent? = some parent →
      ClassName.root layer.name = ClassName.root parent.name := by
    intro layer parent hlayer hparent
    obtain ⟨workshop, found, counter, -, hparse, -, -⟩ := hlayer.exists_namedAfter hfit hparent
    exact ClassName.root_of_parse?_eq_some hparse
  induction handleClass with
  | base => exact ClassName.root_of_parse?_eq_none hroot
  | roleLayer name parent contract key forwarders ih =>
      rw [hstep h rfl]
      exact ih (h.of_suffix (List.suffix_cons _ _)) hroot
  | markerLayer name parent marker ih =>
      rw [hstep h rfl]
      exact ih (h.of_suffix (List.suffix_cons _ _)) hroot

/-! ### One composition -/

variable {workshop : Ref Workshop} {found : Workshop} {layers : List HandleClass}
  {reservation : Reservation} {filled : Registry}

namespace Commits

theorem countsOn (h : Commits session later workshop found layers reservation filled) :
    session.CountsOn later := by
  intro other found' hother
  rw [h.get?_workshops]
  split
  · rename_i hsame
    subst hsame
    obtain rfl : found = found' := Option.some.inj (h.present.symm.trans hother)
    refine ⟨_, rfl, rfl, ?_⟩
    change found.engine.namer.next - 1 ≤ found.engine.namer.next + reservation.issued - 1
    omega
  · exact ⟨found', hother, rfl, Nat.le_refl _⟩

theorem counting (h : Commits session later workshop found layers reservation filled)
    (hcounting : ∀ other found', session.workshops.get? other = some found' →
      found'.engine.Counting) {other : Ref Workshop} {found' : Workshop}
    (hother : later.workshops.get? other = some found') : found'.engine.Counting := by
  rw [h.get?_workshops] at hother
  split at hother
  · obtain rfl := Option.some.inj hother
    have hbefore := hcounting workshop found h.present
    exact ⟨hbefore.number, Nat.le_add_right_of_le hbefore.positive⟩
  · exact hcounting other found' hother

theorem names (h : Commits session later workshop found layers reservation filled)
    (hcounting : found.engine.Counting) {layer : HandleClass} (hlayer : layer ∈ layers) :
    ∃ found', later.workshops.get? workshop = some found' ∧ found'.engine.Names layer := by
  refine ⟨found.commit reservation, by rw [h.get?_workshops, if_pos rfl], ?_⟩
  obtain ⟨index, hindex⟩ := List.getElem?_of_mem hlayer
  obtain ⟨hbound, -⟩ := List.getElem?_eq_some_iff.mp hindex
  obtain ⟨parent, hparent, hname⟩ := h.numbered.names index layer hindex
  have hissued := h.numbered.issued
  have hpositive := hcounting.positive
  refine ⟨parent, found.engine.namer.next + index, hparent, by omega, ?_, ?_⟩
  · change found.engine.namer.next + index ≤ found.engine.namer.next + reservation.issued - 1
    omega
  · rw [hname, hcounting.number]
    rfl

end Commits

/-- A composition that succeeds commits what it makes, and gives a handle of these classes over
levels of the target's class. -/
theorem exists_commits_over {agent : AgentId} {operation : Operation} {shared : SharedHandle}
    (h : (session.compose workshop agent operation).1 = .ok shared) :
    ∃ found layers reservation filled next kept,
      session.makes workshop agent operation = layers.map (Made.mk workshop) ∧
        Commits session (session.compose workshop agent operation).2.2 workshop found layers
          reservation filled ∧
        (session.compose workshop agent operation).2.2.handles.get? shared.cell = some next ∧
        next.handleClass.root = (session.read operation.target).handleClass.root ∧
        kept <:+ (session.read operation.target).handleClass.levels ∧
        next.handleClass.levels = layers.reverse ++ kept := by
  obtain ⟨found, next, hworkshop, hresult, hnext⟩ := exists_of_compose_eq_ok h
  obtain ⟨plan, hcomposes⟩ := Engine.exists_of_compose_ok hresult
  obtain ⟨found', layers, reservation, filled, hmakes, hcommits⟩ := exists_commits h
  obtain ⟨kept, hkept, hlevels⟩ := Operation.exists_kept_of_plan hcomposes.planned
  have hmade : session.makes workshop agent operation = plan.made.map (Made.mk workshop) := by
    simp only [makes, hworkshop, hresult, hcomposes.planned]
  have hinjective : Function.Injective (Made.mk workshop) := fun _ _ hsame => (Made.mk.inj hsame).2
  obtain rfl : plan.made = layers := hinjective.list_map (hmade.symm.trans hmakes)
  refine ⟨found', plan.made, reservation, filled, next, kept, hmakes, hcommits, hnext,
    Engine.root_of_compose_ok hresult, hkept, ?_⟩
  rw [hcomposes.handleClass]
  exact hlevels

end Session

/-! ### Whole runs -/

namespace Run

/-- The level belongs to the class of a handle that the run obtained. -/
def Holds (run : Run) (level : HandleClass) : Prop :=
  ∃ shared ∈ run.obtained, ∃ handle, run.session.handles.get? shared.cell = some handle ∧
    level ∈ handle.handleClass.levels

/-- Whatever the run made or obtained is named along its chain. -/
structure NamesChains (run : Run) (made : List Made) : Prop where
  counting : ∀ workshop found, run.session.workshops.get? workshop = some found →
    found.engine.Counting
  obtained : ∀ shared ∈ run.obtained, ∃ handle,
    run.session.handles.get? shared.cell = some handle ∧ run.session.Mirrors handle.handleClass
  made : ∀ one ∈ made,
    (∃ found, run.session.workshops.get? one.maker = some found ∧
      found.engine.Names one.handleClass) ∧ run.Holds one.handleClass

variable {run : Run} {made : List Made}

/-- What is named stays so, and the newly obtained and made are added to it. -/
theorem NamesChains.extend (h : run.NamesChains made) (later : Session) (new : List SharedHandle)
    (newlyMade : List Made)
    (hcounting : ∀ workshop found, later.workshops.get? workshop = some found →
      found.engine.Counting)
    (hcounts : run.session.CountsOn later)
    (hhandles : ∀ cell handle, run.session.handles.get? cell = some handle →
      later.handles.get? cell = some handle)
    (hnew : ∀ shared ∈ new, ∃ handle,
      later.handles.get? shared.cell = some handle ∧ later.Mirrors handle.handleClass)
    (hmade : ∀ one ∈ newlyMade,
      (∃ found, later.workshops.get? one.maker = some found ∧
        found.engine.Names one.handleClass) ∧
      (Run.mk later (run.obtained ++ new)).Holds one.handleClass) :
    (Run.mk later (run.obtained ++ new)).NamesChains (made ++ newlyMade) where
  counting := hcounting
  obtained := by
    intro shared hshared
    rcases List.mem_append.mp hshared with hold | hadded
    · obtain ⟨handle, hhandle, hmirrors⟩ := h.obtained shared hold
      exact ⟨handle, hhandles _ _ hhandle, hmirrors.mono hcounts⟩
    · exact hnew shared hadded
  made := by
    intro one hone
    rcases List.mem_append.mp hone with hold | hadded
    · obtain ⟨⟨found, hworkshop, hnames⟩, shared, hshared, handle, hhandle, hlevel⟩ :=
        h.made one hold
      exact ⟨hcounts.exists_names hworkshop hnames, shared, List.mem_append_left _ hshared, handle,
        hhandles _ _ hhandle, hlevel⟩
    · exact hmade one hadded

theorem NamesChains.instantiate (h : run.NamesChains made) {handleClass : HandleClass}
    (hbase : handleClass.isBase = true) (hname : handleClass.name ≠ "") :
    (run.fulfil (.instantiate handleClass)).2.NamesChains made := by
  have hextended := h.extend (run.fulfil (.instantiate handleClass)).2.session
    [⟨run.session.handles.next, ⟨run.session.identities.next⟩⟩] [] h.counting
    (.of_workshops_eq rfl) (fun _ _ => Pool.get?_add_of_get? _ _ _ _) ?_ (by simp)
  · rwa [List.append_nil] at hextended
  · intro shared hshared
    rw [List.mem_singleton.mp hshared]
    exact ⟨_, Pool.get?_add_next _ _, .of_isBase hbase hname⟩

theorem NamesChains.compose (h : run.NamesChains made) {place : Nat} {target : SharedHandle}
    (hplace : run.obtained[place]? = some target) (workshop : Ref Workshop) (agent : AgentId)
    (operation : Operation) :
    (run.fulfil (.compose workshop place agent operation)).2.NamesChains
      (made ++ run.session.makes workshop agent (operation.aimedAt target)) := by
  rw [fulfil_compose hplace]
  simp only
  cases hresult : (run.session.compose workshop agent (operation.aimedAt target)).1 with
  | error error =>
      obtain ⟨hworkshops, -, hhandles⟩ := Session.compose_of_eq_error hresult
      rw [Session.makes_of_eq_error hresult]
      refine h.extend _ _ _ ?_ (.of_workshops_eq hworkshops) ?_ (by simp [Except.toOption]) (by simp)
      · rw [hworkshops]
        exact h.counting
      · rw [hhandles]
        exact fun _ _ hhandle => hhandle
  | ok shared =>
      obtain ⟨found, layers, reservation, filled, next, kept, hmakes, hcommits, hnext, hroot, hkept,
        hlevels⟩ := Session.exists_commits_over hresult
      obtain ⟨source, hsource, hmirrors⟩ := h.obtained target (List.mem_of_getElem? hplace)
      have hread : run.session.read (operation.aimedAt target).target = source :=
        Session.read_of_get? hsource
      rw [hread] at hroot hkept
      have hcounts := hcommits.countsOn
      have hcounting := h.counting workshop found hcommits.present
      rw [hmakes]
      refine h.extend _ _ _ (fun _ _ => hcommits.counting h.counting) hcounts
        (fun _ _ hhandle => Session.get?_handles_compose hhandle _ _ _) ?_ ?_
      · intro other hother
        obtain rfl : other = shared := by simpa [Except.toOption] using hother
        refine ⟨next, hnext, hroot ▸ hmirrors.root, ?_⟩
        intro level hlevel hlayer
        rw [hlevels] at hlevel
        rcases List.mem_append.mp hlevel with hnew | hold
        · obtain ⟨found', hlater, hnamed⟩ :=
            hcommits.names hcounting (List.mem_reverse.mp hnew)
          exact ⟨workshop, found', hlater, hnamed⟩
        · exact (hmirrors.mono hcounts).layers level (hkept.subset hold) hlayer
      · intro one hone
        obtain ⟨layer, hlayer, rfl⟩ := List.mem_map.mp hone
        refine ⟨hcommits.names hcounting hlayer, shared, ?_, next, hnext, ?_⟩
        · exact List.mem_append_right _ (by simp [Except.toOption])
        · rw [hlevels]
          exact List.mem_append_left _ (List.mem_reverse.mpr hlayer)

theorem NamesChains.fulfil (h : run.NamesChains made) {order : Order}
    (hbase : ∀ handleClass, order = .instantiate handleClass →
      handleClass.isBase = true ∧ handleClass.name ≠ "") :
    (run.fulfil order).2.NamesChains (made ++ run.makes order) := by
  cases order with
  | instantiate handleClass =>
      obtain ⟨hisBase, hname⟩ := hbase handleClass rfl
      rw [makes, List.append_nil]
      exact h.instantiate hisBase hname
  | compose workshop place agent operation =>
      cases hplace : run.obtained[place]? with
      | none =>
          simp only [Run.fulfil, makes, hplace, List.append_nil]
          exact h
      | some target =>
          simp only [makes, hplace]
          exact h.compose hplace workshop agent operation

theorem NamesChains.fulfilAll (h : run.NamesChains made) {orders : List Order}
    (hbases : ∀ handleClass, .instantiate handleClass ∈ orders →
      handleClass.isBase = true ∧ handleClass.name ≠ "") :
    (run.fulfilAll orders).NamesChains (made ++ run.makesAll orders) := by
  induction orders generalizing run made with
  | nil =>
      rw [makesAll, List.append_nil]
      exact h
  | cons order rest ih =>
      rw [makesAll, ← List.append_assoc]
      refine ih (h.fulfil fun handleClass horder => ?_) fun handleClass hmem =>
        hbases handleClass (List.mem_cons_of_mem _ hmem)
      exact hbases handleClass (horder ▸ List.mem_cons_self)

/-- Made names read as what they were made from. In a run over base classes that have a name, each
class made reads as its parent's name with the number of its engine and one of the counters that this
engine used up, each class of a handle does so level by level, and if the base's own name is not a
made one, it is what every level's name comes down to. -/
theorem names_mirror_chains {session : Session} {orders : List Order}
    (hstarted : ∀ workshop found, session.workshops.get? workshop = some found →
      found.engine.namer = Namer.start found.engine.id)
    (hbases : ∀ handleClass, .instantiate handleClass ∈ orders →
      handleClass.isBase = true ∧ handleClass.name ≠ "")
    (hfit : ((Run.mk session []).fulfilAll orders).session.CountersFit) :
    let run := (Run.mk session []).fulfilAll orders
    (∀ (base : String) (counter : UInt64) (engine : EngineId), base ≠ "" →
      let name := ClassName.mk base counter.toNat engine
      ClassName.parse? name.display = some name ∧
        (ClassName.parse? name.display).map ClassName.display = some name.display) ∧
    (∀ one ∈ (Run.mk session []).makesAll orders, run.Holds one.handleClass ∧
      ∃ parent, one.handleClass.parent? = some parent ∧
        run.session.NamedAfter one.maker one.handleClass parent) ∧
    ∀ shared ∈ run.obtained, ∀ level ∈ (run.session.read shared).handleClass.levels,
      (∀ parent, level.parent? = some parent →
        ∃ workshop, run.session.NamedAfter workshop level parent) ∧
      (ClassName.parse? level.root.name = none → ClassName.root level.name = level.root.name) := by
  intro run
  have hstart : (Run.mk session []).NamesChains [] := by
    refine ⟨?_, by simp, by simp⟩
    intro workshop found hworkshop
    have hnamer := hstarted workshop found hworkshop
    refine ⟨?_, ?_⟩
    · rw [hnamer]
      rfl
    · rw [hnamer]
      exact Nat.le_refl 1
  have hchains : run.NamesChains ((Run.mk session []).makesAll orders) := hstart.fulfilAll hbases
  have hlevels : ∀ handle level, run.session.Mirrors handle → level ∈ handle.levels →
      run.session.Mirrors level := fun handle level hmirrors hlevel =>
    hmirrors.of_suffix (HandleClass.suffix_of_mem_levels hlevel)
  refine ⟨?_, ?_, ?_⟩
  · intro base counter engine hbase name
    have hparse : ClassName.parse? name.display = some name :=
      ClassName.parse?_display hbase counter.toNat_lt_size
    exact ⟨hparse, by rw [hparse, Option.map_some]⟩
  · intro one hone
    obtain ⟨⟨found, hworkshop, hnames⟩, hholds⟩ := hchains.made one hone
    obtain ⟨shared, hshared, handle, hhandle, hlevel⟩ := hholds
    obtain ⟨handle', hhandle', hmirrors⟩ := hchains.obtained shared hshared
    obtain rfl : handle = handle' := Option.some.inj (hhandle.symm.trans hhandle')
    obtain ⟨parent, counter, hparent, hcounter⟩ := hnames
    have hparentMirrors : run.session.Mirrors parent :=
      (hlevels _ _ hmirrors hlevel).of_suffix (HandleClass.suffix_of_parent? hparent)
    exact ⟨⟨shared, hshared, handle, hhandle, hlevel⟩, parent, hparent,
      Session.namedAfter_of_names hfit hworkshop ⟨parent, counter, hparent, hcounter⟩ hparent
        hparentMirrors.name_ne_empty⟩
  · intro shared hshared level hlevel
    obtain ⟨handle, hhandle, hmirrors⟩ := hchains.obtained shared hshared
    rw [Session.read_of_get? hhandle] at hlevel
    have hlevelMirrors := hlevels _ _ hmirrors hlevel
    exact ⟨fun parent hparent => hlevelMirrors.exists_namedAfter hfit hparent,
      hlevelMirrors.root_name hfit⟩

section Restacking

/-- Two engines that have made nothing yet, the second with a number of two digits. -/
def twoEngines : Session :=
  let session := (Session.start.addWorkshop ⟨some 1, false⟩ none none).2
  (session.addWorkshop ⟨some 42, false⟩ none none).2

/-- The second engine extends a class of the first one's, which then takes the lower layer out and makes
the upper one again. -/
def restackingOrders : List Order :=
  let admin := (Role.administrator true []).reference ⟨0⟩
  [.instantiate (.base "DBProxy_roled" Table.empty [] none),
    .compose ⟨0⟩ 0 .zero (ChangeKind.assume.operation ⟨⟨0⟩, ⟨1⟩⟩ admin),
    .compose ⟨1⟩ 1 .zero
      (ChangeKind.assume.operation ⟨⟨0⟩, ⟨1⟩⟩ ((Role.auditor []).reference ⟨1⟩)),
    .compose ⟨0⟩ 2 .zero (ChangeKind.release.operation ⟨⟨0⟩, ⟨1⟩⟩ admin)]

theorem names_mirror_chains_restacked :
    let run := (Run.mk twoEngines []).fulfilAll restackingOrders
    ((Run.mk twoEngines []).makesAll restackingOrders).map (fun one => one.handleClass.name) =
        ["DBProxy_roled_roled_1_1", "DBProxy_roled_roled_1_1_roled_1_42",
          "DBProxy_roled_roled_2_1"] ∧
      (∀ one ∈ (Run.mk twoEngines []).makesAll restackingOrders,
        ∃ parent, one.handleClass.parent? = some parent ∧
          run.session.NamedAfter one.maker one.handleClass parent) ∧
      (run.session.read ⟨⟨2⟩, ⟨1⟩⟩).className = "DBProxy_roled_roled_1_1_roled_1_42" ∧
      ClassName.root (run.session.read ⟨⟨2⟩, ⟨1⟩⟩).className = "DBProxy_roled" := by
  intro run
  have hstarted : ∀ workshop found, twoEngines.workshops.get? workshop = some found →
      found.engine.namer = Namer.start found.engine.id := by
    intro workshop found hworkshop
    have hall : ∀ one ∈ twoEngines.workshops.objects.toList,
        one.engine.namer = Namer.start one.engine.id := by decide
    exact hall found (Array.mem_toList_iff.mpr (Array.mem_of_getElem? hworkshop))
  have hfit : run.session.CountersFit := by
    intro workshop found hworkshop
    have hall : ∀ one ∈ run.session.workshops.objects.toList,
        one.engine.manipulations < UInt64.size := by decide +kernel
    exact hall found (Array.mem_toList_iff.mpr (Array.mem_of_getElem? hworkshop))
  have hbases : ∀ handleClass, .instantiate handleClass ∈ restackingOrders →
      handleClass.isBase = true ∧ handleClass.name ≠ "" := by
    intro handleClass hmem
    obtain rfl : handleClass = .base "DBProxy_roled" Table.empty [] none := by
      simpa [restackingOrders] using hmem
    exact ⟨rfl, by decide⟩
  obtain ⟨-, hmade, hlevels⟩ := names_mirror_chains hstarted hbases hfit
  have hobtained : (⟨⟨2⟩, ⟨1⟩⟩ : SharedHandle) ∈ run.obtained := by decide +kernel
  obtain ⟨-, hroot⟩ := hlevels ⟨⟨2⟩, ⟨1⟩⟩ hobtained _ (HandleClass.mem_levels_self _)
  have hbase : (run.session.read ⟨⟨2⟩, ⟨1⟩⟩).handleClass.root.name = "DBProxy_roled" := by
    decide +kernel
  have hunread : ClassName.parse? "DBProxy_roled" = none := by decide +kernel
  refine ⟨by decide +kernel, fun one hone => (hmade one hone).2, by decide +kernel, ?_⟩
  rw [hbase] at hroot
  exact hroot hunread

end Restacking

end Run

end RoleStack

import RoleStack.Proofs.NameCollisions
import RoleStack.Session.Basic

/-!
# What engines have made so far

The classes that several engines made, in order, against the counters of the engines and the contents
of their registries. A composition that succeeds keeps the two in agreement, so every engine numbers
the classes that it registers from one on and leaves no number out.
-/

namespace RoleStack

/-! ### Who made what -/

/-- A class and the engine that made it. -/
structure Made where
  maker : Ref Workshop
  handleClass : HandleClass

/-- What one engine made, in order. -/
def madeBy (workshop : Ref Workshop) (made : List Made) : List HandleClass :=
  (made.filter fun one => one.maker = workshop).map Made.handleClass

theorem madeBy_append (workshop : Ref Workshop) (made more : List Made) :
    madeBy workshop (made ++ more) = madeBy workshop made ++ madeBy workshop more := by
  simp [madeBy]

theorem madeBy_self (workshop : Ref Workshop) (layers : List HandleClass) :
    madeBy workshop (layers.map (Made.mk workshop)) = layers := by
  induction layers with
  | nil => rfl
  | cons layer rest ih => simpa [madeBy] using ih

theorem madeBy_other {workshop other : Ref Workshop} (h : other ≠ workshop)
    (layers : List HandleClass) : madeBy workshop (layers.map (Made.mk other)) = [] := by
  simp [madeBy, h]

namespace Session

def registryOf? (session : Session) (workshop : Ref Workshop) : Option (Ref Registry) :=
  (session.workshops.get? workshop).map Workshop.registry

/-- What the registry holds of the classes made. -/
def registered (session : Session) (registry : Ref Registry) (made : List Made) :
    List (String × HandleClass) :=
  (made.filter fun one => session.registryOf? one.maker = some registry).map fun one =>
    (one.handleClass.name, one.handleClass)

/-- No two engines have the same number. -/
def EnginesDiffer (session : Session) : Prop :=
  ∀ workshop other found found', session.workshops.get? workshop = some found →
    session.workshops.get? other = some found' → found.engine.id = found'.engine.id →
      workshop = other

/-- No engine has made a class yet, and their registries are empty, though they may be shared. -/
structure Unused (session : Session) : Prop where
  started : ∀ workshop found, session.workshops.get? workshop = some found →
    found.engine.namer = Namer.start found.engine.id
  empty : ∀ workshop found, session.workshops.get? workshop = some found →
    session.registries.get? found.registry = some Registry.empty
  distinct : session.EnginesDiffer

/-- Engines and registries agree with what was made so far. -/
structure Tallies (session : Session) (made : List Made) : Prop where
  distinct : session.EnginesDiffer
  own : ∀ workshop found, session.workshops.get? workshop = some found →
    found.engine.namer.engine = found.engine.id
  makers : ∀ one ∈ made, ∃ found, session.workshops.get? one.maker = some found
  counted : ∀ workshop found, session.workshops.get? workshop = some found →
    found.engine.namer.next = (madeBy workshop made).length + 1
  named : ∀ workshop found, session.workshops.get? workshop = some found →
    ∀ index layer, (madeBy workshop made)[index]? = some layer →
      ∃ parent, layer.parent? = some parent ∧
        layer.name = (ClassName.mk parent.name (index + 1) found.engine.id).display
  nodup : (made.map fun one => one.handleClass.name).Nodup
  filled : ∀ workshop found, session.workshops.get? workshop = some found →
    ∃ registry, session.registries.get? found.registry = some registry ∧
      registry.classes.entries = session.registered found.registry made

variable {session later : Session} {made : List Made} {workshop : Ref Workshop} {found : Workshop}

theorem Unused.tallies (h : session.Unused) : session.Tallies [] where
  distinct := h.distinct
  own := by
    intro workshop found hworkshop
    rw [h.started workshop found hworkshop]
    rfl
  makers := by simp
  counted := by
    intro workshop found hworkshop
    rw [h.started workshop found hworkshop]
    rfl
  named := by
    intro workshop found hworkshop index layer hlayer
    cases hlayer
  nodup := List.nodup_nil
  filled := fun workshop found hworkshop =>
    ⟨Registry.empty, h.empty workshop found hworkshop, rfl⟩

theorem contains_iff_of_entries {registry : Registry} {reference : Ref Registry}
    (hentries : registry.classes.entries = session.registered reference made) (name : String) :
    registry.contains name = true ↔
      ∃ one ∈ made, session.registryOf? one.maker = some reference ∧
        one.handleClass.name = name := by
  rw [Registry.contains, Table.contains_iff_mem_keys, Table.keys, hentries, registered]
  simp [and_assoc]

namespace Tallies

theorem exists_index (h : session.Tallies made) {one : Made} (hone : one ∈ made) :
    ∃ (found : Workshop) (index : Nat), session.workshops.get? one.maker = some found ∧
      (madeBy one.maker made)[index]? = some one.handleClass := by
  obtain ⟨found, hfound⟩ := h.makers one hone
  have hmem : one.handleClass ∈ madeBy one.maker made :=
    List.mem_map_of_mem (List.mem_filter.mpr ⟨hone, decide_eq_true rfl⟩)
  obtain ⟨index, hindex⟩ := List.getElem?_of_mem hmem
  exact ⟨found, index, hfound, hindex⟩

/-- A made class with a number of this engine in its name was made by this engine, in that turn. -/
theorem index_of_name (h : session.Tallies made)
    (hworkshop : session.workshops.get? workshop = some found) {one : Made} (hone : one ∈ made)
    {base : String} {counter : Nat}
    (hname : one.handleClass.name = (ClassName.mk base counter found.engine.id).display) :
    ∃ index, counter = index + 1 ∧ (madeBy workshop made)[index]? = some one.handleClass := by
  obtain ⟨found', index, hmaker, hindex⟩ := h.exists_index hone
  obtain ⟨parent, -, hname'⟩ := h.named one.maker found' hmaker index one.handleClass hindex
  obtain ⟨-, hcounter, hengine⟩ := ClassName.mk.inj
    (ClassName.display_injective (hname.symm.trans hname'))
  obtain rfl := h.distinct workshop one.maker found found' hworkshop hmaker hengine
  exact ⟨index, hcounter, hindex⟩

theorem aheadOf (h : session.Tallies made)
    (hworkshop : session.workshops.get? workshop = some found) :
    found.engine.namer.AheadOf (session.registry found.registry) := by
  obtain ⟨registry, hregistry, hentries⟩ := h.filled workshop found hworkshop
  have hread : session.registry found.registry = registry := by
    rw [Session.registry, hregistry]
    rfl
  rw [hread]
  intro base counter hcontains
  obtain ⟨one, hone, -, hname⟩ := (contains_iff_of_entries hentries _).mp hcontains
  rw [h.own workshop found hworkshop] at hname
  obtain ⟨index, rfl, hindex⟩ := h.index_of_name hworkshop hone hname
  obtain ⟨hbound, -⟩ := List.getElem?_eq_some_iff.mp hindex
  rw [h.counted workshop found hworkshop]
  omega

/-- New counters give new names. -/
theorem nodup_append (h : session.Tallies made)
    (hworkshop : session.workshops.get? workshop = some found) {layers : List HandleClass}
    {reservation : Reservation} (hnumbered : Numbered found.engine.namer layers reservation) :
    ((made ++ layers.map (Made.mk workshop)).map fun one => one.handleClass.name).Nodup := by
  have hnew : ((layers.map (Made.mk workshop)).map fun one => one.handleClass.name) =
      layers.map HandleClass.name := by
    rw [List.map_map]
    rfl
  rw [List.map_append, hnew, List.nodup_append]
  refine ⟨h.nodup, hnumbered.nodup_names, ?_⟩
  intro first hfirst second hsecond hsame
  obtain ⟨one, hone, rfl⟩ := List.mem_map.mp hfirst
  obtain ⟨layer, hlayer, rfl⟩ := List.mem_map.mp hsecond
  obtain ⟨base, counter, hle, -, hname⟩ := hnumbered.name_of_mem hlayer
  rw [h.own workshop found hworkshop] at hname
  obtain ⟨index, rfl, hindex⟩ := h.index_of_name hworkshop hone (hsame.trans hname)
  obtain ⟨hbound, -⟩ := List.getElem?_eq_some_iff.mp hindex
  rw [h.counted workshop found hworkshop] at hle
  omega

end Tallies

end Session

/-! ### A composition that succeeds -/

def Workshop.commit (workshop : Workshop) (reservation : Reservation) : Workshop :=
  { workshop with
    engine := { workshop.engine with namer := workshop.engine.namer.commit reservation } }

namespace Session

/-- One engine used up the names of these classes, and they were registered. -/
structure Commits (session later : Session) (workshop : Ref Workshop) (found : Workshop)
    (layers : List HandleClass) (reservation : Reservation) (filled : Registry) : Prop where
  present : session.workshops.get? workshop = some found
  numbered : Numbered found.engine.namer layers reservation
  registered : (session.registry found.registry).registerAll layers = .ok filled
  workshops : later.workshops = session.workshops.set workshop (found.commit reservation)
  registries : later.registries = session.registries.set found.registry filled

variable {session later : Session} {made : List Made} {workshop : Ref Workshop} {found : Workshop}
  {layers : List HandleClass} {reservation : Reservation} {filled : Registry}

namespace Commits

theorem get?_workshops (h : Commits session later workshop found layers reservation filled)
    (other : Ref Workshop) :
    later.workshops.get? other =
      if workshop = other then some (found.commit reservation)
      else session.workshops.get? other := by
  rw [h.workshops, Pool.get?_set]
  split
  · rename_i hsame
    rw [← hsame, h.present]
    rfl
  · rfl

theorem registryOf?_eq (h : Commits session later workshop found layers reservation filled) :
    later.registryOf? = session.registryOf? := by
  funext other
  rw [registryOf?, h.get?_workshops]
  split
  · rename_i hsame
    rw [← hsame, registryOf?, h.present]
    rfl
  · rfl

/-- Engines keep their numbers and registries. -/
theorem exists_before (h : Commits session later workshop found layers reservation filled)
    {other : Ref Workshop} {found' : Workshop} (hother : later.workshops.get? other = some found') :
    ∃ before, session.workshops.get? other = some before ∧
      found'.engine.id = before.engine.id ∧ found'.registry = before.registry ∧
      found'.engine.namer.engine = before.engine.namer.engine := by
  rw [h.get?_workshops] at hother
  split at hother
  · rename_i hsame
    obtain rfl := Option.some.inj hother
    exact ⟨found, hsame ▸ h.present, rfl, rfl, rfl⟩
  · exact ⟨found', hother, rfl, rfl, rfl⟩

theorem registered_append (h : Commits session later workshop found layers reservation filled)
    (registry : Ref Registry) (made : List Made) :
    later.registered registry (made ++ layers.map (Made.mk workshop)) =
      session.registered registry made ++
        if found.registry = registry then layers.map fun layer => (layer.name, layer) else [] := by
  rw [Session.registered, Session.registered, h.registryOf?_eq, List.filter_append, List.map_append]
  congr 1
  have hregistry : session.registryOf? workshop = some found.registry := by
    rw [registryOf?, h.present]
    rfl
  split
  · rename_i hsame
    rw [List.filter_eq_self.mpr, List.map_map]
    · rfl
    · intro one hone
      obtain ⟨layer, -, rfl⟩ := List.mem_map.mp hone
      rw [decide_eq_true_eq, hregistry, hsame]
  · rename_i hother
    rw [List.filter_eq_nil_iff.mpr, List.map_nil]
    intro one hone
    obtain ⟨layer, -, rfl⟩ := List.mem_map.mp hone
    rw [decide_eq_true_eq, hregistry, Option.some.injEq]
    exact hother

end Commits

namespace Tallies

theorem named_append (h : session.Tallies made)
    (hcommits : Commits session later workshop found layers reservation filled) {index : Nat}
    {layer : HandleClass} (hlayer : (madeBy workshop made ++ layers)[index]? = some layer) :
    ∃ parent, layer.parent? = some parent ∧
      layer.name = (ClassName.mk parent.name (index + 1) found.engine.id).display := by
  rw [List.getElem?_append] at hlayer
  split at hlayer
  · exact h.named workshop found hcommits.present index layer hlayer
  · rename_i hbound
    obtain ⟨parent, hparent, hname⟩ := hcommits.numbered.names _ layer hlayer
    refine ⟨parent, hparent, ?_⟩
    have hcounter : found.engine.namer.next + (index - (madeBy workshop made).length) =
        index + 1 := by
      rw [h.counted workshop found hcommits.present]
      omega
    rw [hname, hcounter, h.own workshop found hcommits.present]

theorem commit (h : session.Tallies made)
    (hcommits : Commits session later workshop found layers reservation filled) :
    later.Tallies (made ++ layers.map (Made.mk workshop)) where
  distinct := by
    intro first second found' found'' hfirst hsecond hsame
    obtain ⟨before, hbefore, hid, -⟩ := hcommits.exists_before hfirst
    obtain ⟨before', hbefore', hid', -⟩ := hcommits.exists_before hsecond
    exact h.distinct first second before before' hbefore hbefore'
      (hid.symm.trans (hsame.trans hid'))
  own := by
    intro other found' hother
    obtain ⟨before, hbefore, hid, -, hengine⟩ := hcommits.exists_before hother
    rw [hengine, hid, h.own other before hbefore]
  makers := by
    intro one hone
    rw [hcommits.get?_workshops]
    split
    · exact ⟨_, rfl⟩
    · rename_i hother
      rcases List.mem_append.mp hone with hold | hnew
      · exact h.makers one hold
      · obtain ⟨layer, -, rfl⟩ := List.mem_map.mp hnew
        exact absurd rfl hother
  counted := by
    intro other found' hother
    rw [hcommits.get?_workshops] at hother
    rw [madeBy_append, List.length_append]
    split at hother
    · rename_i hsame
      obtain rfl := Option.some.inj hother
      rw [← hsame, madeBy_self]
      have hcounted := h.counted workshop found hcommits.present
      have hissued := hcommits.numbered.issued
      change found.engine.namer.next + reservation.issued = _
      omega
    · rename_i hne
      rw [madeBy_other hne, List.length_nil, Nat.add_zero]
      exact h.counted other found' hother
  named := by
    intro other found' hother index layer hlayer
    rw [hcommits.get?_workshops] at hother
    rw [madeBy_append] at hlayer
    split at hother
    · rename_i hsame
      obtain rfl := Option.some.inj hother
      rw [← hsame, madeBy_self] at hlayer
      exact h.named_append hcommits hlayer
    · rename_i hne
      rw [madeBy_other hne, List.append_nil] at hlayer
      exact h.named other found' hother index layer hlayer
  nodup := h.nodup_append hcommits.present hcommits.numbered
  filled := by
    intro other found' hother
    obtain ⟨before, hbefore, -, hregistry, -⟩ := hcommits.exists_before hother
    obtain ⟨registry, hget, hentries⟩ := h.filled other before hbefore
    rw [hregistry, hcommits.registries, Pool.get?_set, hcommits.registered_append]
    split
    · rename_i hsame
      rw [hget]
      refine ⟨filled, rfl, ?_⟩
      have hread : session.registry found.registry = registry := by
        rw [Session.registry, hsame, hget]
        rfl
      rw [Registry.entries_registerAll hcommits.registered, hread, hentries]
    · exact ⟨registry, hget, by rw [hentries, List.append_nil]⟩

theorem of_eq (h : session.Tallies made) (hworkshops : later.workshops = session.workshops)
    (hregistries : later.registries = session.registries) : later.Tallies made where
  distinct := by
    rw [EnginesDiffer, hworkshops]
    exact h.distinct
  own := by
    rw [hworkshops]
    exact h.own
  makers := by
    rw [hworkshops]
    exact h.makers
  counted := by
    rw [hworkshops]
    exact h.counted
  named := by
    rw [hworkshops]
    exact h.named
  nodup := h.nodup
  filled := by
    have hregistered : later.registered = session.registered := by
      unfold registered registryOf?
      rw [hworkshops]
    rw [hworkshops, hregistries, hregistered]
    exact h.filled

end Tallies

/-! ### The numbers of one engine -/

namespace Tallies

theorem length_madeBy (h : session.Tallies made)
    (hworkshop : session.workshops.get? workshop = some found) :
    (madeBy workshop made).length = found.engine.manipulations := by
  rw [Engine.manipulations, h.counted workshop found hworkshop, Nat.add_sub_cancel]

variable {registry : Registry}

theorem counter_le (h : session.Tallies made)
    (hworkshop : session.workshops.get? workshop = some found)
    (hentries : registry.classes.entries = session.registered found.registry made) {base : String}
    {counter : Nat}
    (hcontains : registry.contains (ClassName.mk base counter found.engine.id).display = true) :
    1 ≤ counter ∧ counter ≤ found.engine.manipulations := by
  obtain ⟨one, hone, -, hname⟩ := (contains_iff_of_entries hentries _).mp hcontains
  obtain ⟨index, rfl, hindex⟩ := h.index_of_name hworkshop hone hname
  obtain ⟨hbound, -⟩ := List.getElem?_eq_some_iff.mp hindex
  rw [← h.length_madeBy hworkshop]
  omega

theorem base_unique (h : session.Tallies made)
    (hworkshop : session.workshops.get? workshop = some found)
    (hentries : registry.classes.entries = session.registered found.registry made)
    {base other : String} {counter : Nat}
    (hbase : registry.contains (ClassName.mk base counter found.engine.id).display = true)
    (hother : registry.contains (ClassName.mk other counter found.engine.id).display = true) :
    base = other := by
  obtain ⟨one, hone, -, hname⟩ := (contains_iff_of_entries hentries _).mp hbase
  obtain ⟨one', hone', -, hname'⟩ := (contains_iff_of_entries hentries _).mp hother
  obtain ⟨index, hcounter, hindex⟩ := h.index_of_name hworkshop hone hname
  obtain ⟨index', hcounter', hindex'⟩ := h.index_of_name hworkshop hone' hname'
  obtain rfl : index = index' := by omega
  have hsame : one.handleClass = one'.handleClass :=
    Option.some.inj (hindex.symm.trans hindex')
  rw [← hsame] at hname'
  exact (ClassName.mk.inj (ClassName.display_injective (hname.symm.trans hname'))).1

theorem exists_base (h : session.Tallies made)
    (hworkshop : session.workshops.get? workshop = some found)
    (hentries : registry.classes.entries = session.registered found.registry made) {counter : Nat}
    (hpositive : 1 ≤ counter) (hle : counter ≤ found.engine.manipulations) :
    ∃ base, registry.contains (ClassName.mk base counter found.engine.id).display = true := by
  rw [← h.length_madeBy hworkshop] at hle
  have hbound : counter - 1 < (madeBy workshop made).length := by omega
  have hlayer := List.getElem?_eq_getElem hbound
  obtain ⟨parent, -, hname⟩ := h.named workshop found hworkshop _ _ hlayer
  obtain ⟨one, hone, hclass⟩ := List.mem_map.mp (List.getElem_mem hbound)
  obtain ⟨hmem, hmaker⟩ := List.mem_filter.mp hone
  rw [decide_eq_true_eq] at hmaker
  refine ⟨parent.name, (contains_iff_of_entries hentries _).mpr ⟨one, hmem, ?_, ?_⟩⟩
  · rw [hmaker, registryOf?, hworkshop]
    rfl
  · rw [hclass, hname, Nat.sub_add_cancel hpositive]

end Tallies

end Session

end RoleStack

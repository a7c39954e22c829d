import RoleStack.Engine
import Mathlib.Data.List.Basic

/-!
# Names of made classes

A name can be read in one way only, so classes made under different counters have different names.
A namer is ahead of a registry when every registered name of its engine has an earlier counter; then
no class it makes can collide, and it stays ahead when they are registered.
-/

namespace RoleStack

/-- Two texts cut at the last mark are equal only part by part. -/
theorem append_cons_inj_of_notMem_right {α : Type} {mark : α} {left left' right right' : List α}
    (hright : mark ∉ right) (hright' : mark ∉ right')
    (h : left ++ mark :: right = left' ++ mark :: right') : left = left' ∧ right = right' := by
  rcases List.append_eq_append_iff.mp h with ⟨between, hleft, hcut⟩ | ⟨between, hleft, hcut⟩
  · cases between with
    | nil => simpa [hleft] using hcut
    | cons first rest =>
        obtain ⟨-, hmark⟩ := List.cons.inj hcut
        exact absurd (hmark ▸ by simp) hright
  · cases between with
    | nil => simpa [hleft, eq_comm] using hcut
    | cons first rest =>
        obtain ⟨-, hmark⟩ := List.cons.inj hcut
        exact absurd (hmark ▸ by simp) hright'

theorem underscore_notMem_digits (number : Nat) : '_' ∉ (toString number).toList := by
  rw [Nat.toString_eq_repr, Nat.toList_repr]
  exact Nat.underscore_not_in_toDigits

theorem eq_of_digits_eq {first second : Nat}
    (h : (toString first).toList = (toString second).toList) : first = second := by
  rw [Nat.toString_eq_repr, Nat.toList_repr, Nat.toString_eq_repr, Nat.toList_repr] at h
  have hread := congrArg (fun digits => Nat.ofDigitChars 10 digits 0) h
  simpa using hread

/-- The base may hold anything, digits and separators included. -/
theorem ClassName.display_injective : Function.Injective ClassName.display := by
  rintro ⟨base, counter, ⟨engine⟩⟩ ⟨base', counter', ⟨engine'⟩⟩ h
  have hchars : (ClassName.mk base counter ⟨engine⟩).chars =
      (ClassName.mk base' counter' ⟨engine'⟩).chars := by
    simpa [display] using congrArg String.toList h
  simp only [chars, EngineId.display] at hchars
  -- Engine and counter are written in digits, so the last two underscores are those of the format.
  obtain ⟨hbefore, hengine⟩ := append_cons_inj_of_notMem_right
    (underscore_notMem_digits _) (underscore_notMem_digits _) hchars
  have hcut : ∀ (text : String) (number : Nat),
      text.toList ++ separator ++ (toString number).toList =
        (text.toList ++ ['_', 'r', 'o', 'l', 'e', 'd']) ++ '_' :: (toString number).toList := by
    intro text number
    simp [separator]
  rw [hcut, hcut] at hbefore
  obtain ⟨hbase, hcounter⟩ := append_cons_inj_of_notMem_right
    (underscore_notMem_digits _) (underscore_notMem_digits _) hbefore
  have hbase : base = base' := String.toList_inj.mp (List.append_cancel_right hbase)
  have hcounter : counter = counter' := eq_of_digits_eq hcounter
  have hengine : engine = engine' := UInt64.toNat_inj.mp (eq_of_digits_eq hengine)
  rw [hbase, hcounter, hengine]

/-! ### Registering a batch -/

theorem Table.contains_insert {Key Value : Type} [DecidableEq Key] (table : Table Key Value)
    (key other : Key) (value : Value) :
    (table.insert key value).contains other = (decide (key = other) || table.contains other) := by
  simp only [contains, get?_insert]
  split <;> simp_all

namespace Registry

/-- The first name of the batch that repeats an earlier one of it or is registered already. -/
def collision? (registry : Registry) : List HandleClass → List String → Option String
  | [], _ => none
  | made :: rest, earlier =>
      if earlier.contains made.name || registry.contains made.name then some made.name
      else registry.collision? rest (made.name :: earlier)

/-- The registry with the batch taken in, unless a name collides. -/
def registerAll (registry : Registry) (batch : List HandleClass) : Except String Registry :=
  match registry.collision? batch [] with
  | some name => .error name
  | none =>
      .ok ⟨batch.foldl (fun classes made => classes.insert made.name made) registry.classes⟩

theorem check_eq (registry : Registry) (batch : List HandleClass) (earlier : List String) :
    check batch earlier registry =
      match registry.collision? batch earlier with
      | some name => (.error name, registry)
      | none => (.ok (), registry) := by
  induction batch generalizing earlier with
  | nil => rfl
  | cons made rest ih =>
      rw [check, collision?]
      split
      · rfl
      · exact ih _

theorem enter_eq (registry : Registry) (batch : List HandleClass) :
    enter batch registry =
      ⟨batch.foldl (fun classes made => classes.insert made.name made) registry.classes⟩ := by
  induction batch generalizing registry with
  | nil => rfl
  | cons made rest ih => exact ih _

/-- In place or not, a batch does the same, and one that is refused has changed nothing: the check is over
before the first class enters. -/
theorem takeIn_eq (registry : Registry) (batch : List HandleClass) :
    registry.takeIn batch =
      match registry.registerAll batch with
      | .error name => (.error name, registry)
      | .ok filled => (.ok (), filled) := by
  rw [takeIn, check_eq, registerAll]
  cases registry.collision? batch [] with
  | some name => rfl
  | none => exact congrArg _ (enter_eq registry batch)

end Registry

theorem Registry.collision?_eq_none_iff (registry : Registry) (batch : List HandleClass)
    (earlier : List String) :
    registry.collision? batch earlier = none ↔
      (batch.map HandleClass.name).Nodup ∧
        ∀ made ∈ batch, made.name ∉ earlier ∧ registry.contains made.name = false := by
  induction batch generalizing earlier with
  | nil => simp [collision?]
  | cons made rest ih =>
      rw [collision?]
      split
      · rename_i hcollides
        simp only [Bool.or_eq_true, List.contains_iff_mem] at hcollides
        simp only [reduceCtorEq, List.mem_cons, forall_eq_or_imp, false_iff]
        rintro ⟨-, ⟨hearlier, habsent⟩, -⟩
        simp_all
      · rename_i hfree
        simp only [Bool.or_eq_true, List.contains_iff_mem, not_or, Bool.not_eq_true] at hfree
        rw [ih]
        simp only [List.map_cons, List.nodup_cons, List.mem_map, List.mem_cons, not_or,
          forall_eq_or_imp]
        constructor
        · rintro ⟨hnodup, hrest⟩
          refine ⟨⟨?_, hnodup⟩, hfree, fun other hother => ⟨(hrest other hother).1.2,
            (hrest other hother).2⟩⟩
          rintro ⟨other, hother, hname⟩
          exact (hrest other hother).1.1 hname
        · rintro ⟨⟨hnew, hnodup⟩, -, hrest⟩
          refine ⟨hnodup, fun other hother => ⟨⟨?_, (hrest other hother).1⟩,
            (hrest other hother).2⟩⟩
          exact fun hname => hnew ⟨other, hother, hname⟩

theorem Table.contains_foldl_insert (batch : List HandleClass) (classes : Table String HandleClass)
    (name : String) :
    (batch.foldl (fun classes made => classes.insert made.name made) classes).contains name =
      (classes.contains name || batch.any fun made => made.name = name) := by
  induction batch generalizing classes with
  | nil => simp
  | cons made rest ih =>
      rw [List.foldl_cons, ih, contains_insert, List.any_cons, Bool.or_left_comm, Bool.or_assoc]

theorem Registry.contains_registerAll {registry filled : Registry} {batch : List HandleClass}
    (h : registry.registerAll batch = .ok filled) (name : String) :
    filled.contains name = true ↔
      registry.contains name = true ∨ ∃ made ∈ batch, made.name = name := by
  unfold registerAll at h
  split at h
  · cases h
  · obtain rfl := Except.ok.inj h
    simp [contains, Table.contains_foldl_insert]

/-! ### Classes numbered in turn -/

/-- The classes extend their parents under the namer's next counters, one after the other. -/
structure Numbered (namer : Namer) (made : List HandleClass) (reservation : Reservation) :
    Prop where
  engine : reservation.engine = namer.engine
  first : reservation.first = namer.next
  issued : reservation.issued = made.length
  names : ∀ index layer, made[index]? = some layer → ∃ parent, layer.parent? = some parent ∧
    layer.name = (ClassName.mk parent.name (namer.next + index) namer.engine).display

namespace Numbered

variable {namer : Namer} {made : List HandleClass} {reservation : Reservation}

theorem nil (namer : Namer) : Numbered namer [] namer.reserve :=
  ⟨rfl, rfl, rfl, by simp⟩

theorem append (h : Numbered namer made reservation) {layer parent : HandleClass}
    (hparent : layer.parent? = some parent) (hname : layer.name = reservation.nextName parent.name) :
    Numbered namer (made ++ [layer]) reservation.advance := by
  refine ⟨h.engine, h.first, by simp [Reservation.advance, h.issued], ?_⟩
  intro index other hother
  rw [List.getElem?_append] at hother
  split at hother
  · exact h.names index other hother
  · rename_i hindex
    obtain ⟨hlast, rfl⟩ : index - made.length = 0 ∧ layer = other := by
      simpa [List.getElem?_singleton] using hother
    have hindex : index = made.length := by omega
    refine ⟨parent, hparent, ?_⟩
    rw [hname, Reservation.nextName, h.engine, h.first, h.issued, hindex]

theorem name_of_mem (h : Numbered namer made reservation) {layer : HandleClass}
    (hmem : layer ∈ made) : ∃ base counter, namer.next ≤ counter ∧
      counter < namer.next + reservation.issued ∧
      layer.name = (ClassName.mk base counter namer.engine).display := by
  obtain ⟨index, hindex, rfl⟩ := List.mem_iff_getElem.mp hmem
  obtain ⟨parent, -, hname⟩ := h.names index _ (List.getElem?_eq_getElem hindex)
  exact ⟨parent.name, namer.next + index, by omega, by have := h.issued; omega, hname⟩

theorem nodup_names (h : Numbered namer made reservation) : (made.map HandleClass.name).Nodup := by
  rw [List.Nodup, List.pairwise_map, List.pairwise_iff_getElem]
  intro first second hfirst hsecond hlt heq
  obtain ⟨parent, -, hname⟩ := h.names first _ (List.getElem?_eq_getElem hfirst)
  obtain ⟨parent', -, hname'⟩ := h.names second _ (List.getElem?_eq_getElem hsecond)
  rw [hname, hname'] at heq
  have hcounter := congrArg ClassName.counter (ClassName.display_injective heq)
  simp only at hcounter
  omega

end Numbered

/-- Every registered name of the namer's engine has a counter that is used up. -/
def Namer.AheadOf (namer : Namer) (registry : Registry) : Prop :=
  ∀ base counter, registry.contains (ClassName.mk base counter namer.engine).display = true →
    counter < namer.next

theorem Namer.aheadOf_empty (namer : Namer) : namer.AheadOf Registry.empty := by
  intro base counter hcontains
  simp [Registry.contains, Registry.empty, Table.contains] at hcontains

namespace Numbered

variable {namer : Namer} {made : List HandleClass} {reservation : Reservation}
  {registry : Registry}

/-- New counters cannot collide. -/
theorem exists_registerAll (h : Numbered namer made reservation) (hahead : namer.AheadOf registry) :
    ∃ filled, registry.registerAll made = .ok filled := by
  have hfree : registry.collision? made [] = none := by
    rw [Registry.collision?_eq_none_iff]
    refine ⟨h.nodup_names, fun layer hmem => ⟨List.not_mem_nil, ?_⟩⟩
    obtain ⟨base, counter, hle, -, hname⟩ := h.name_of_mem hmem
    rw [← Bool.not_eq_true, hname]
    intro hcontains
    have := hahead base counter hcontains
    omega
  unfold Registry.registerAll
  rw [hfree]
  exact ⟨_, rfl⟩

theorem aheadOf_commit (h : Numbered namer made reservation) (hahead : namer.AheadOf registry)
    {filled : Registry} (hfilled : registry.registerAll made = .ok filled) :
    (namer.commit reservation).AheadOf filled := by
  intro base counter hcontains
  change counter < namer.next + reservation.issued
  rcases (Registry.contains_registerAll hfilled _).mp hcontains with hold | ⟨layer, hmem, hname⟩
  · have := hahead base counter hold
    omega
  · obtain ⟨base', counter', -, hlt, hname'⟩ := h.name_of_mem hmem
    rw [hname'] at hname
    have hcounter := congrArg ClassName.counter (ClassName.display_injective hname)
    simp only at hcounter
    omega

end Numbered

end RoleStack

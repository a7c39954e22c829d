/-!
Pools of shared objects. An object keeps its place for good, so a reference handed out once stays
valid, and two references are to the same object exactly when they are equal.
-/

namespace RoleStack

/-- A reference to one object of the pool for `Object`. -/
structure Ref (Object : Type) where
  index : Nat

instance (Object : Type) : DecidableEq (Ref Object) := fun first second =>
  decidable_of_iff (first.index = second.index) (by cases first; cases second; simp)

structure Pool (Object : Type) where
  objects : Array Object

namespace Pool

variable {Object : Type}

def empty : Pool Object := ⟨#[]⟩

def get? (pool : Pool Object) (reference : Ref Object) : Option Object :=
  pool.objects[reference.index]?

/-- The reference that the next added object gets. -/
def next (pool : Pool Object) : Ref Object := ⟨pool.objects.size⟩

def add (pool : Pool Object) (object : Object) : Pool Object :=
  ⟨pool.objects.push object⟩

/-- A reference that the pool never handed out changes nothing. -/
def set (pool : Pool Object) (reference : Ref Object) (object : Object) : Pool Object :=
  ⟨pool.objects.setIfInBounds reference.index object⟩

@[simp]
theorem next_add (pool : Pool Object) (object : Object) :
    (pool.add object).next = ⟨pool.next.index + 1⟩ := by
  rw [next, add, Array.size_push]
  rfl

theorem get?_add (pool : Pool Object) (object : Object) (reference : Ref Object) :
    (pool.add object).get? reference =
      if reference = pool.next then some object else pool.get? reference := by
  obtain ⟨index⟩ := reference
  simp only [get?, add, next, Ref.mk.injEq, Array.getElem?_push]

@[simp]
theorem get?_add_next (pool : Pool Object) (object : Object) :
    (pool.add object).get? pool.next = some object := by
  rw [get?_add, if_pos rfl]

theorem get?_add_of_get? (pool : Pool Object) (object found : Object) (reference : Ref Object)
    (h : pool.get? reference = some found) : (pool.add object).get? reference = some found := by
  simp only [get?, add] at h ⊢
  rw [Array.getElem?_push]
  split
  · simp_all
  · exact h

theorem get?_set (pool : Pool Object) (reference other : Ref Object) (object : Object) :
    (pool.set reference object).get? other =
      if reference = other then (pool.get? other).map fun _ => object else pool.get? other := by
  obtain ⟨index⟩ := reference
  obtain ⟨index'⟩ := other
  simp only [get?, set, Ref.mk.injEq, Array.getElem?_setIfInBounds]
  split
  · split <;> simp_all
  · rfl

theorem get?_set_of_get? {pool : Pool Object} {reference : Ref Object} {found : Object}
    (h : pool.get? reference = some found) (object : Object) :
    (pool.set reference object).get? reference = some object := by
  rw [get?_set, if_pos rfl, h, Option.map_some]

end Pool

end RoleStack

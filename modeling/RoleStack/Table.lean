/-!
Tables in insertion order. Writing under a present key keeps the key's place, and a new key goes
to the end.
-/

namespace RoleStack

structure Table (Key Value : Type) where
  entries : List (Key × Value)
deriving DecidableEq

namespace Table

variable {Key Value : Type} [DecidableEq Key]

def lookupEntry (key : Key) : List (Key × Value) → Option Value
  | [] => none
  | (other, value) :: rest => if other = key then some value else lookupEntry key rest

def insertEntry (key : Key) (value : Value) : List (Key × Value) → List (Key × Value)
  | [] => [(key, value)]
  | (other, old) :: rest =>
      if other = key then (key, value) :: rest else (other, old) :: insertEntry key value rest

def empty : Table Key Value := ⟨[]⟩

def get? (table : Table Key Value) (key : Key) : Option Value :=
  lookupEntry key table.entries

def contains (table : Table Key Value) (key : Key) : Bool :=
  (table.get? key).isSome

def insert (table : Table Key Value) (key : Key) (value : Value) : Table Key Value :=
  ⟨insertEntry key value table.entries⟩

/-- The remaining entries keep their order. -/
def erase (table : Table Key Value) (key : Key) : Table Key Value :=
  ⟨table.entries.filter fun entry => entry.1 ≠ key⟩

omit [DecidableEq Key] in
def keys (table : Table Key Value) : List Key :=
  table.entries.map Prod.fst

omit [DecidableEq Key] in
def values (table : Table Key Value) : List Value :=
  table.entries.map Prod.snd

omit [DecidableEq Key] in
def size (table : Table Key Value) : Nat :=
  table.entries.length

/-- A later pair with the key of an earlier one replaces its value. -/
def ofList (pairs : List (Key × Value)) : Table Key Value :=
  pairs.foldl (fun table pair => table.insert pair.1 pair.2) empty

@[simp]
theorem get?_empty (key : Key) : (empty : Table Key Value).get? key = none := rfl

theorem lookupEntry_insertEntry (key other : Key) (value : Value) (entries : List (Key × Value)) :
    lookupEntry other (insertEntry key value entries) =
      if key = other then some value else lookupEntry other entries := by
  induction entries with
  | nil => simp [insertEntry, lookupEntry]
  | cons entry rest ih =>
      obtain ⟨present, old⟩ := entry
      by_cases hpresent : present = key <;> by_cases hother : key = other <;>
        simp_all [insertEntry, lookupEntry]

theorem get?_insert (table : Table Key Value) (key other : Key) (value : Value) :
    (table.insert key value).get? other =
      if key = other then some value else table.get? other :=
  lookupEntry_insertEntry key other value table.entries

theorem get?_erase (table : Table Key Value) (key other : Key) :
    (table.erase key).get? other = if key = other then none else table.get? other := by
  obtain ⟨entries⟩ := table
  simp only [erase, get?]
  induction entries with
  | nil => simp [lookupEntry]
  | cons entry rest ih =>
      obtain ⟨present, value⟩ := entry
      by_cases hpresent : present = key
      · by_cases hother : key = other <;> simp_all [lookupEntry]
      · by_cases hother : key = other
        · subst hother
          simp_all [lookupEntry]
        · by_cases hsame : present = other <;> simp_all [lookupEntry]

theorem mem_keys_iff (table : Table Key Value) (key : Key) :
    key ∈ table.keys ↔ (table.get? key).isSome := by
  obtain ⟨entries⟩ := table
  simp only [keys, get?]
  induction entries with
  | nil => simp [lookupEntry]
  | cons entry rest ih =>
      obtain ⟨present, value⟩ := entry
      by_cases hpresent : present = key
      · simp [lookupEntry, hpresent]
      · have hkey : key ≠ present := fun heq => hpresent heq.symm
        simpa [lookupEntry, hpresent, hkey] using ih

end Table

end RoleStack

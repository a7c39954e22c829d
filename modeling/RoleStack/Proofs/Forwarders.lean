import RoleStack.Generator
import Mathlib.Data.List.Induction
import Mathlib.Data.List.Nodup

/-!
# The forwarders of a contract

The default generator gives a forwarder for every operation of the prepared contract, in the order
of the contract, and refuses exactly the contracts that name an operation twice. A generator may also be
any machine.
-/

namespace RoleStack

def Contract.forwarders (contract : Contract) (key : Key) : ForwarderTable :=
  ⟨contract.operations.map fun signature =>
    (signature.name, Generator.forwarderOf contract key signature)⟩

namespace Table

variable {Key Value : Type} [DecidableEq Key]

theorem insertEntry_of_lookupEntry_eq_none {key : Key} {entries : List (Key × Value)}
    (h : lookupEntry key entries = none) (value : Value) :
    insertEntry key value entries = entries ++ [(key, value)] := by
  induction entries with
  | nil => rfl
  | cons entry rest ih =>
      obtain ⟨other, old⟩ := entry
      by_cases hother : other = key
      · simp [lookupEntry, hother] at h
      · simp only [lookupEntry, if_neg hother] at h
        simp only [insertEntry, if_neg hother, ih h, List.cons_append]

theorem insert_of_contains_eq_false {table : Table Key Value} {key : Key}
    (h : table.contains key = false) (value : Value) :
    table.insert key value = ⟨table.entries ++ [(key, value)]⟩ := by
  have hnone : lookupEntry key table.entries = none := by
    simpa [contains, get?] using h
  rw [insert, insertEntry_of_lookupEntry_eq_none hnone]

theorem contains_iff_mem_keys (table : Table Key Value) (key : Key) :
    table.contains key = true ↔ key ∈ table.keys :=
  (table.mem_keys_iff key).symm

/-- A table made of items by their names finds what the first item of the name has. -/
theorem lookupEntry_map_eq_find? {Item : Type} (nameOf : Item → Key) (value : Item → Value)
    (items : List Item) (key : Key) :
    lookupEntry key (items.map fun item => (nameOf item, value item)) =
      (items.find? fun item => nameOf item = key).map value := by
  induction items with
  | nil => rfl
  | cons item rest ih =>
      rw [List.map_cons, lookupEntry, List.find?_cons]
      by_cases hname : nameOf item = key
      · simp [hname]
      · rw [if_neg hname, ih, decide_eq_false hname]

theorem find?_of_nodup_map {Item : Type} {nameOf : Item → Key} {items : List Item}
    (distinct : (items.map nameOf).Nodup) {item : Item} (hmem : item ∈ items) :
    (items.find? fun other => nameOf other = nameOf item) = some item := by
  cases hfind : items.find? fun other => nameOf other = nameOf item with
  | none => simpa using List.find?_eq_none.mp hfind item hmem
  | some found =>
      have hname : nameOf found = nameOf item := by simpa using List.find?_some hfind
      rw [List.inj_on_of_nodup_map distinct (List.mem_of_find?_eq_some hfind) hmem hname]

theorem exists_first_repeat {Item : Type} {nameOf : Item → Key} {items : List Item}
    (h : ¬(items.map nameOf).Nodup) :
    ∃ front item rest, items = front ++ item :: rest ∧ (front.map nameOf).Nodup ∧
      nameOf item ∈ front.map nameOf := by
  -- From the end, since all before the first repeat must be without one.
  induction items using List.reverseRecOn with
  | nil => exact absurd List.nodup_nil h
  | append_singleton before last ih =>
      by_cases hbefore : (before.map nameOf).Nodup
      · refine ⟨before, last, [], rfl, hbefore, ?_⟩
        by_contra hnew
        apply h
        rw [List.map_append, List.map_singleton, ← List.concat_eq_append, List.nodup_concat]
        exact ⟨hnew, hbefore⟩
      · obtain ⟨front, item, rest, rfl, hfront, hitem⟩ := ih hbefore
        exact ⟨front, item, rest ++ [last], by simp, hfront, hitem⟩

end Table

namespace Generator

variable (contract : Contract) (key : Key)

/-- The table so far is extended in the order of the signatures. -/
theorem delegateAll_of_nodup {signatures : List Signature} {table : ForwarderTable}
    (hnodup : (table.keys ++ signatures.map Signature.name).Nodup) :
    delegateAll contract key signatures table =
      .ok ⟨table.entries ++ signatures.map fun signature =>
        (signature.name, forwarderOf contract key signature)⟩ := by
  induction signatures generalizing table with
  | nil => simp [delegateAll]
  | cons signature rest ih =>
      have hnew : table.contains signature.name = false := by
        rw [← Bool.not_eq_true, Table.contains_iff_mem_keys]
        intro hmem
        rw [List.nodup_append] at hnodup
        exact hnodup.2.2 _ hmem _ (by simp) rfl
      rw [delegateAll, if_neg (by simp [hnew]), Table.insert_of_contains_eq_false hnew, ih]
      · simp
      · simpa [Table.keys] using hnodup

/-- The first operation whose name came before is the one that is refused. -/
theorem delegateAll_of_repeat {front rest : List Signature} {signature : Signature}
    {table : ForwarderTable} (hfront : (table.keys ++ front.map Signature.name).Nodup)
    (hrepeat : signature.name ∈ table.keys ++ front.map Signature.name) :
    delegateAll contract key (front ++ signature :: rest) table =
      .error (.duplicateOperation contract.name signature.name) := by
  induction front generalizing table with
  | nil =>
      rw [List.map_nil, List.append_nil, ← Table.contains_iff_mem_keys] at hrepeat
      rw [List.nil_append, delegateAll, if_pos hrepeat]
  | cons first front ih =>
      have hnew : table.contains first.name = false := by
        rw [← Bool.not_eq_true, Table.contains_iff_mem_keys]
        intro hmem
        rw [List.nodup_append] at hfront
        exact hfront.2.2 _ hmem _ (by simp) rfl
      rw [List.cons_append, delegateAll, if_neg (by simp [hnew]),
        Table.insert_of_contains_eq_false hnew, ih]
      · simpa [Table.keys] using hfront
      · simpa [Table.keys] using hrepeat

theorem generate_prepared (generator : Generator) (hstyle : generator.style = .delegating) :
    (generator.prepare contract key).generate =
      (delegateAll contract key contract.operations Table.empty).map fun table =>
        (table, ⟨.delegating, some (contract, key)⟩) := by
  obtain ⟨style, prepared⟩ := generator
  obtain rfl : style = .delegating := hstyle
  simp only [prepare, generate, delegate]
  cases delegateAll contract key contract.operations Table.empty <;> rfl

theorem generate_of_nodup (generator : Generator) (hstyle : generator.style = .delegating)
    (hnodup : contract.operationNames.Nodup) :
    (generator.prepare contract key).generate =
      .ok (contract.forwarders key, ⟨.delegating, some (contract, key)⟩) := by
  have hall : delegateAll contract key contract.operations Table.empty =
      .ok (contract.forwarders key) := delegateAll_of_nodup contract key hnodup
  rw [generate_prepared contract key generator hstyle, hall]
  rfl

theorem generate_of_not_nodup (generator : Generator) (hstyle : generator.style = .delegating)
    (hrepeated : ¬contract.operationNames.Nodup) :
    ∃ front signature rest, contract.operations = front ++ signature :: rest ∧
      (front.map Signature.name).Nodup ∧ signature.name ∈ front.map Signature.name ∧
      (generator.prepare contract key).generate =
        .error (.duplicateOperation contract.name signature.name) := by
  obtain ⟨front, signature, rest, hoperations, hfront, hrepeat⟩ :=
    Table.exists_first_repeat hrepeated
  have hall : delegateAll contract key contract.operations Table.empty =
      .error (.duplicateOperation contract.name signature.name) := by
    rw [hoperations]
    exact delegateAll_of_repeat contract key hfront hrepeat
  refine ⟨front, signature, rest, hoperations, hfront, hrepeat, ?_⟩
  rw [generate_prepared contract key generator hstyle, hall]
  rfl

theorem forwarders_of_generate {contract : Contract} {key : Key} {generator next : Generator}
    {table : ForwarderTable} (hstyle : generator.style = .delegating)
    (h : (generator.prepare contract key).generate = .ok (table, next)) :
    table = contract.forwarders key ∧ next.style = .delegating := by
  by_cases hnodup : contract.operationNames.Nodup
  · rw [generate_of_nodup contract key generator hstyle hnodup] at h
    obtain ⟨rfl, rfl⟩ := Prod.mk.inj (Except.ok.inj h)
    exact ⟨rfl, rfl⟩
  · obtain ⟨front, signature, rest, -, -, -, herror⟩ :=
      generate_of_not_nodup contract key generator hstyle hnodup
    rw [herror] at h
    cases h

theorem delegateAll_ne_other {contract : Contract} {key : Key} {signatures : List Signature}
    {table : ForwarderTable} {error : ForwardingError}
    (h : delegateAll contract key signatures table = .error error) (cause : CompositionCause) :
    error ≠ .other cause := by
  induction signatures generalizing table with
  | nil => cases h
  | cons signature rest ih =>
      rw [delegateAll] at h
      split at h
      · obtain rfl := Except.error.inj h
        exact ForwardingError.noConfusion
      · exact ih h

/-- Delegating fails with causes of its own alone. -/
theorem delegate_ne_other {generator : Generator} {error : ForwardingError}
    (h : generator.delegate = .error error) (cause : CompositionCause) : error ≠ .other cause := by
  unfold delegate at h
  split at h
  · obtain rfl := Except.error.inj h
    exact ForwardingError.noConfusion
  · exact delegateAll_ne_other h cause

/-! ### Generators with a state of their own -/

/-- The generator goes on as the machine does from this state. -/
def Runs {State : Type} (generator : Generator) (machine : GeneratorMachine State) (state : State) :
    Prop :=
  ∃ start calls,
    generator.style =
      .custom (fun calls => (machine.generate (calls.foldl machine.after start)).1) calls ∧
    calls.foldl machine.after start = state

section Machines

variable {State : Type} {machine : GeneratorMachine State} {state : State} {generator : Generator}

theorem runs_ofMachine (machine : GeneratorMachine State) (start : State) :
    (ofMachine machine start).Runs machine start :=
  ⟨start, [], rfl, rfl⟩

theorem Runs.prepare (h : generator.Runs machine state) (contract : Contract) (key : Key) :
    (generator.prepare contract key).Runs machine (machine.prepare contract key state) := by
  obtain ⟨start, calls, hstyle, rfl⟩ := h
  obtain ⟨style, prepared⟩ := generator
  obtain rfl : style = _ := hstyle
  exact ⟨start, calls ++ [.prepare contract key], rfl, List.foldl_append⟩

theorem Runs.generate (h : generator.Runs machine state) :
    match (machine.generate state).1 with
    | .error error => generator.generate = .error error
    | .ok table => ∃ next, generator.generate = .ok (table, next) ∧
        next.Runs machine (machine.generate state).2 := by
  obtain ⟨start, calls, hstyle, rfl⟩ := h
  obtain ⟨style, prepared⟩ := generator
  obtain rfl : style = _ := hstyle
  simp only [Generator.generate]
  cases hanswer : (machine.generate (calls.foldl machine.after start)).1 with
  | error error => rfl
  | ok table => exact ⟨_, rfl, start, calls ++ [.generate], rfl, List.foldl_append⟩

end Machines

end Generator

end RoleStack

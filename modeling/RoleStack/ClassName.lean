import RoleStack.Identity
import RoleStack.Text.Word

/-!
Names of made classes: the name of the extended class, a counter, and the number of the engine that
made it. A namer hands counters out tentatively; they are used up only by a commit.
-/

namespace RoleStack

structure ClassName where
  base : String
  counter : Nat
  engine : EngineId
deriving DecidableEq

namespace ClassName

/-- Stands between the extended class and the counter. -/
def separator : List Char := ['_', 'r', 'o', 'l', 'e', 'd', '_']

def chars (name : ClassName) : List Char :=
  name.base.toList ++ separator ++ (toString name.counter).toList ++
    '_' :: name.engine.display.toList

def display (name : ClassName) : String := String.ofList name.chars

def splitLast? : List Char → Option (List Char × List Char)
  | [] => none
  | char :: rest =>
      match splitLast? rest with
      | some (before, after) => some (char :: before, after)
      | none =>
          if separator.isPrefixOf (char :: rest) then
            some ([], (char :: rest).drop separator.length)
          else none

def splitFirst? (text : List Char) : Option (List Char × List Char) :=
  match text.dropWhile (· ≠ '_') with
  | [] => none
  | _ :: after => some (text.takeWhile (· ≠ '_'), after)

/-- Reads a name with a base that is not empty and numbers of 64 bits. -/
def parseChars? (text : List Char) : Option ClassName := do
  let (base, rest) ← splitLast? text
  let (counter, engine) ← splitFirst? rest
  if base.isEmpty then none
  else
    let counter ← (readWord counter).toOption
    let engine ← (readWord engine).toOption
    some ⟨String.ofList base, counter.toNat, ⟨engine⟩⟩

def parse? (name : String) : Option ClassName := parseChars? name.toList

theorem length_splitLast? {text before after : List Char}
    (h : splitLast? text = some (before, after)) :
    before.length + separator.length + after.length = text.length := by
  induction text generalizing before with
  | nil => simp [splitLast?] at h
  | cons char rest ih =>
      simp only [splitLast?] at h
      split at h
      · rename_i before' after' hrest
        obtain ⟨rfl, rfl⟩ := Prod.mk.inj (Option.some.inj h)
        have := ih hrest
        simp only [List.length_cons]
        omega
      · split at h
        · rename_i hseparator
          obtain ⟨rfl, rfl⟩ := Prod.mk.inj (Option.some.inj h)
          have := (List.isPrefixOf_iff_prefix.mp hseparator).length_le
          simp only [List.length_nil, List.length_drop]
          omega
        · simp at h

theorem length_base_of_parseChars? {text : List Char} {name : ClassName}
    (h : parseChars? text = some name) : name.base.toList.length < text.length := by
  simp only [parseChars?, Option.bind_eq_bind, Option.bind_eq_some_iff] at h
  obtain ⟨⟨before, after⟩, hsplit, ⟨counter, engine⟩, _, h⟩ := h
  have hlength := length_splitLast? hsplit
  simp only [separator, List.length_cons, List.length_nil] at hlength
  split at h
  · simp at h
  · simp only [Option.bind_eq_some_iff] at h
    obtain ⟨_, _, _, _, h⟩ := h
    obtain rfl := Option.some.inj h
    simp only [String.toList_ofList]
    omega

/-- The name that is left when no step of making can be read off any more. -/
def rootChars (text : List Char) : List Char :=
  match _h : parseChars? text with
  | none => text
  | some name => rootChars name.base.toList
termination_by text.length
decreasing_by exact length_base_of_parseChars? _h

def root (name : String) : String := String.ofList (rootChars name.toList)

end ClassName

/-- Counts the classes that one engine has made, without a bound: a counter of 64 bits agrees with it, and
with the reservations, below 2^64. -/
structure Namer where
  engine : EngineId
  next : Nat
deriving DecidableEq

/-- Names handed out tentatively. -/
structure Reservation where
  engine : EngineId
  first : Nat
  issued : Nat
deriving DecidableEq

def Namer.start (engine : EngineId) : Namer := ⟨engine, 1⟩

def Namer.reserve (namer : Namer) : Reservation := ⟨namer.engine, namer.next, 0⟩

/-- Uses the names up. A reservation that is not committed leaves the namer as it was. -/
def Namer.commit (namer : Namer) (reservation : Reservation) : Namer :=
  { namer with next := namer.next + reservation.issued }

namespace Reservation

def nextName (reservation : Reservation) (base : String) : String :=
  (ClassName.mk base (reservation.first + reservation.issued) reservation.engine).display

def advance (reservation : Reservation) : Reservation :=
  { reservation with issued := reservation.issued + 1 }

def nextNames (reservation : Reservation) : List String → List String × Reservation
  | [] => ([], reservation)
  | base :: rest =>
      let (names, last) := reservation.advance.nextNames rest
      (reservation.nextName base :: names, last)

end Reservation

end RoleStack

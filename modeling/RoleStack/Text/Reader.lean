/-!
Readers over a list of characters. A reader takes a piece off the front of the text or fails.
-/

namespace RoleStack

abbrev Reader (Value : Type) := List Char → Option (Value × List Char)

namespace Reader

variable {Value : Type}

def literal (expected : List Char) : Reader Unit := fun text =>
  if expected.isPrefixOf text then some ((), text.drop expected.length) else none

def someOf (accepts : Char → Bool) : Reader (List Char) := fun text =>
  match text.takeWhile accepts with
  | [] => none
  | taken => some (taken, text.dropWhile accepts)

def exactly (accepts : Char → Bool) : Nat → Reader (List Char)
  | 0, text => some ([], text)
  | count + 1, char :: rest =>
      if accepts char then do
        let (taken, rest) ← exactly accepts count rest
        some (char :: taken, rest)
      else none
  | _ + 1, [] => none

/-- The items up to the first place where `item` fails. -/
def many (item : Reader Value) (fuel : Nat) : List Char → List Value × List Char
  | text =>
      match fuel with
      | 0 => ([], text)
      | fuel + 1 =>
          match item text with
          | none => ([], text)
          | some (value, rest) =>
              let (values, rest) := many item fuel rest
              (value :: values, rest)

/-- Items with a separator between two of them; the separator may not come last. -/
def separatedBy (separator : Reader Unit) (item : Reader Value) (fuel : Nat) :
    Reader (List Value) := fun text => do
  let (value, rest) ← item text
  match fuel, separator rest with
  | fuel + 1, some ((), rest) =>
      let (values, rest) ← separatedBy separator item fuel rest
      some (value :: values, rest)
  | _, _ => some ([value], rest)

/-- The value of a hexadecimal digit, in either case. -/
def hexValue? (char : Char) : Option Nat :=
  if '0' ≤ char ∧ char ≤ '9' then some (char.toNat - 48)
  else if 'a' ≤ char ∧ char ≤ 'f' then some (char.toNat - 87)
  else if 'A' ≤ char ∧ char ≤ 'F' then some (char.toNat - 55)
  else none

/-- The number that digits of a base write, most significant first. -/
def digitsValue (base : Nat) (digits : List Char) : Nat :=
  digits.foldl (fun value digit => base * value + (hexValue? digit).getD 0) 0

def isHexDigit (char : Char) : Bool := (hexValue? char).isSome

def hexNumber (count : Nat) : Reader Nat := fun text => do
  let (digits, rest) ← exactly isHexDigit count text
  some (digitsValue 16 digits, rest)

/-- The character of a code point, where surrogates and numbers out of range have none. -/
def charOfCode? (code : Nat) : Option Char :=
  if code.isValidChar then some (Char.ofNat code) else none

end Reader

end RoleStack

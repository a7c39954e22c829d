/-!
Decimal text of whole numbers without sign that fit 64 bits.
-/

namespace RoleStack

inductive WordError where
  | empty
  | invalidDigit
  | tooLarge
deriving DecidableEq

def WordError.message : WordError → String
  | .empty => "cannot parse integer from empty string"
  | .invalidDigit => "invalid digit found in string"
  | .tooLarge => "number too large to fit in target type"

/-- The first digit that is none, or that leads past 64 bits, decides the error. -/
def readWordDigits (value : UInt64) : List Char → Except WordError UInt64
  | [] => .ok value
  | char :: rest =>
      if char.isDigit then
        let next := 10 * value.toNat + (char.toNat - 48)
        if next < UInt64.size then readWordDigits (UInt64.ofNat next) rest
        else .error .tooLarge
      else .error .invalidDigit

/-- One plus sign may stand before the digits. -/
def readWord : List Char → Except WordError UInt64
  | [] => .error .empty
  | ['+'] => .error .invalidDigit
  | '+' :: digits => readWordDigits 0 digits
  | digits => readWordDigits 0 digits

end RoleStack

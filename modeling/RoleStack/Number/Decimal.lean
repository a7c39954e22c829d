import RoleStack.Number.Binary64

/-!
Reading decimals by floating-point steps. The leading digits that fit 64 bits and the power of ten
are each rounded to the nearest number, and then their product or quotient is. So a decimal of many
digits or of a large exponent may come out next to its nearest number.
-/

namespace RoleStack.Binary64

def isZero : Binary64 → Bool
  | .finite _ significand _ => significand = 0
  | _ => false

def negate : Binary64 → Binary64
  | .finite negative significand exponent => .finite (!negative) significand exponent
  | .infinite negative => .infinite (!negative)
  | .notANumber => .notANumber

/-- The nearest number to `± (numerator / denominator) * 2 ^ exponent`. -/
def ofScaled (negative : Bool) (numerator denominator : Nat) (exponent : Int) : Binary64 :=
  if numerator = 0 then zero negative
  else if 0 ≤ exponent then ofFraction negative (numerator * Nat.pow 2 exponent.toNat) denominator
  else ofFraction negative numerator (denominator * Nat.pow 2 (-exponent).toNat)

/-- The greatest power of ten below infinity. -/
def greatestPower : Int := 308

def powerOfTen (power : Nat) : Binary64 := ofDecimal false 1 (Int.ofNat power)

def timesPowerOfTen (value : Binary64) (power : Nat) : Binary64 :=
  match value, powerOfTen power with
  | .finite negative significand exponent, .finite _ factor shift =>
      ofScaled negative (significand * factor) 1 (exponent + shift)
  | value, _ => value

def overPowerOfTen (value : Binary64) (power : Nat) : Binary64 :=
  match value, powerOfTen power with
  | .finite negative significand exponent, .finite _ factor shift =>
      ofScaled negative significand factor (exponent - shift)
  | value, _ => value

/-- The value times `10 ^ exponent`, rounded once for each power of ten that it takes. -/
def scaled (value : Binary64) (exponent : Int) : Binary64 :=
  if value.isZero then value
  else if greatestPower < exponent then .infinite false
  else if 0 ≤ exponent then value.timesPowerOfTen exponent.toNat
  else if -greatestPower ≤ exponent then value.overPowerOfTen (-exponent).toNat
  else scaled (value.overPowerOfTen greatestPower.toNat) (exponent + greatestPower)
termination_by (-exponent).toNat
decreasing_by
  simp only [greatestPower] at *
  omega

/-- Appends digits as long as the number fits 64 bits, and gives the digits that are left. -/
def appendDigits (number : Nat) : List Char → Nat × List Char
  | [] => (number, [])
  | digit :: rest =>
      let next := 10 * number + (digit.toNat - 48)
      if next < UInt64.size then appendDigits next rest else (number, digit :: rest)

/-- The number read from the digits before the point, those after it, and an exponent. Digits of the
whole part that did not fit leave their places, and those of the fraction nothing. -/
def ofDigits (negative : Bool) (whole fraction : List Char) (exponent : Int) : Binary64 :=
  let (leading, skipped) := appendDigits 0 whole
  let (digits, unread) := appendDigits leading fraction
  let places := Int.ofNat skipped.length - Int.ofNat (fraction.length - unread.length)
  let value := (ofScaled false digits 1 0).scaled (exponent + places)
  if negative then value.negate else value

end RoleStack.Binary64

/-!
Floating-point numbers of 64 bits, kept as sign, significand and exponent. Reading a decimal
rounds to the nearest, ties to even; writing gives the fewest digits that read back.
-/

namespace RoleStack

inductive Binary64 where
  /-- The number `± significand * 2 ^ exponent`. -/
  | finite (negative : Bool) (significand : Nat) (exponent : Int)
  | infinite (negative : Bool)
  | notANumber
deriving DecidableEq

namespace Binary64

def leastExponent : Int := -1074

def greatestExponent : Int := 971

def significandBound : Nat := Nat.pow 2 53

/-- From here on a significand uses all its bits. -/
def fullSignificand : Nat := Nat.pow 2 52

def zero (negative : Bool) : Binary64 := .finite negative 0 leastExponent

/-- The quotient rounded to the nearest natural number, a half to the even neighbour. -/
def roundQuotient (numerator denominator : Nat) : Nat :=
  let quotient := numerator / denominator
  let remainder := 2 * (numerator % denominator)
  if remainder < denominator then quotient
  else if denominator < remainder then quotient + 1
  else if quotient % 2 = 0 then quotient
  else quotient + 1

/-- The quotient `numerator / denominator` over `2 ^ exponent`, as a fraction. -/
def overPower (numerator denominator : Nat) (exponent : Int) : Nat × Nat :=
  if 0 ≤ exponent then (numerator, denominator * Nat.pow 2 exponent.toNat)
  else (numerator * Nat.pow 2 (-exponent).toNat, denominator)

/-- The nearest number to a positive fraction. -/
def ofFraction (negative : Bool) (numerator denominator : Nat) : Binary64 :=
  let estimate : Int := max (Int.ofNat numerator.log2 - Int.ofNat denominator.log2 - 53) leastExponent
  let (tryNumerator, tryDenominator) := overPower numerator denominator estimate
  let exponent := if tryNumerator / tryDenominator < significandBound then estimate else estimate + 1
  let (scaledNumerator, scaledDenominator) := overPower numerator denominator exponent
  let significand := roundQuotient scaledNumerator scaledDenominator
  let (significand, exponent) :=
    if significand = significandBound then (fullSignificand, exponent + 1)
    else (significand, exponent)
  if exponent ≤ greatestExponent then .finite negative significand exponent
  else .infinite negative

def digitCount (number : Nat) : Nat := (Nat.toDigits 10 number).length

/-- The nearest number to `± digits * 10 ^ scale`. -/
def ofDecimal (negative : Bool) (digits : Nat) (scale : Int) : Binary64 :=
  let magnitude := Int.ofNat (digitCount digits) + scale
  if digits = 0 then zero negative
  else if 310 < magnitude then .infinite negative
  else if magnitude < -330 then zero negative
  else if 0 ≤ scale then ofFraction negative (digits * Nat.pow 10 scale.toNat) 1
  else ofFraction negative digits (Nat.pow 10 (-scale).toNat)

def isFinite : Binary64 → Bool
  | .finite .. => true
  | _ => false

/-- A positive number with the ends of the interval that rounds to it, over one denominator. -/
structure Neighbourhood where
  lower : Nat
  value : Nat
  upper : Nat
  denominator : Nat
  closed : Bool

def neighbourhood (significand : Nat) (exponent : Int) : Neighbourhood :=
  let below := if significand = fullSignificand ∧ leastExponent < exponent then 1 else 2
  let quarter := exponent - 2
  let factor := if 0 ≤ quarter then Nat.pow 2 quarter.toNat else 1
  { lower := (4 * significand - below) * factor
    value := 4 * significand * factor
    upper := (4 * significand + 2) * factor
    denominator := if 0 ≤ quarter then 1 else Nat.pow 2 (-quarter).toNat
    closed := significand % 2 = 0 }

def Neighbourhood.covers (range : Neighbourhood) (numerator denominator : Nat) : Bool :=
  let lower := range.lower * denominator
  let upper := range.upper * denominator
  let point := numerator * range.denominator
  if range.closed then lower ≤ point && point ≤ upper else lower < point && point < upper

/-- How many times a fraction below one can be multiplied by ten and stay below one. -/
def leadingZeros (fuel numerator denominator : Nat) : Nat :=
  match fuel with
  | 0 => 0
  | fuel + 1 =>
      if denominator ≤ 10 * numerator then 0
      else leadingZeros fuel (10 * numerator) denominator + 1

/-- The power of ten just above the value: `10 ^ (scale - 1) ≤ value < 10 ^ scale`. -/
def Neighbourhood.decimalScale (range : Neighbourhood) : Int :=
  if range.denominator ≤ range.value then Int.ofNat (digitCount (range.value / range.denominator))
  else Int.negOfNat (leadingZeros 400 range.value range.denominator)

/-- The better neighbour of the value on the grid of multiples of `10 ^ power`, if one reads back. -/
def Neighbourhood.onGrid (range : Neighbourhood) (power : Int) : Option Nat :=
  let gridNumerator := if 0 ≤ power then Nat.pow 10 power.toNat else 1
  let gridDenominator := if 0 ≤ power then 1 else Nat.pow 10 (-power).toNat
  let step := gridNumerator * range.denominator
  let point := range.value * gridDenominator
  let floor := point / step
  let lowerFits := range.covers (floor * gridNumerator) gridDenominator
  let upperFits := range.covers ((floor + 1) * gridNumerator) gridDenominator
  let distance := 2 * (point % step)
  let preferLower := distance < step || (distance = step && floor % 2 = 0)
  match lowerFits, upperFits with
  | true, true => some (if preferLower then floor else floor + 1)
  | true, false => some floor
  | false, true => some (floor + 1)
  | false, false => none

/-- The first hit on ever finer grids, with the power of ten that its digits count. -/
def Neighbourhood.search (range : Neighbourhood) (fuel : Nat) (power : Int) : Nat × Int :=
  match range.onGrid power, fuel with
  | some digits, _ => (digits, power)
  | none, 0 => (range.value / range.denominator, 0)
  | none, fuel + 1 => range.search fuel (power - 1)

/-- The fewest digits that read back. -/
def Neighbourhood.shortest (range : Neighbourhood) : Nat × Int :=
  range.search 20 (range.decimalScale - 1)

def trimZeros (fuel digits : Nat) (power : Int) : Nat × Int :=
  match fuel with
  | 0 => (digits, power)
  | fuel + 1 =>
      if digits % 10 = 0 ∧ digits ≠ 0 then trimZeros fuel (digits / 10) (power + 1)
      else (digits, power)

def writeExponent (exponent : Int) : String :=
  if 0 ≤ exponent then "e+" ++ toString exponent.toNat else "e-" ++ toString (-exponent).toNat

/-- Positional up to sixteen digits before the point and five places after it, else with an exponent. -/
def writeDecimal (digits : Nat) (power : Int) : String :=
  let text := toString digits
  let pointAt := Int.ofNat text.length + power
  if 0 ≤ power ∧ pointAt ≤ 16 then
    text ++ String.ofList (List.replicate power.toNat '0') ++ ".0"
  else if 0 < pointAt ∧ pointAt ≤ 16 then
    String.ofList (text.toList.take pointAt.toNat) ++ "." ++ String.ofList (text.toList.drop pointAt.toNat)
  else if -5 < pointAt ∧ pointAt ≤ 0 then
    "0." ++ String.ofList (List.replicate (-pointAt).toNat '0') ++ text
  else
    let mark := writeExponent (pointAt - 1)
    match text.toList with
    | [digit] => String.ofList [digit] ++ mark
    | first :: rest => String.ofList (first :: '.' :: rest) ++ mark
    | [] => mark

/-- The text of a finite number; other values have none. -/
def text? : Binary64 → Option String
  | .finite negative significand exponent =>
      let sign := if negative then "-" else ""
      if significand = 0 then some (sign ++ "0.0")
      else
        let (digits, power) := (neighbourhood significand exponent).shortest
        let (digits, power) := trimZeros 20 digits power
        some (sign ++ writeDecimal digits power)
  | _ => none

end Binary64

end RoleStack

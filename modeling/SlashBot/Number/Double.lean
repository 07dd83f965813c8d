/-!
# Binary floating-point numbers

A finite number is a significand below `2 ^ 53` times a power of two. Every
operation computes its exact result as a quotient of natural numbers and rounds
once, to the nearest number and to the even significand when two are equally
near.
-/

namespace SlashBot.Number

/-- A number in the double format. -/
inductive Double where
  | finite (negative : Bool) (significand : Nat) (exponent : Int)
  | infinite (negative : Bool)
  | nan
  deriving DecidableEq, Repr

/-- The quotient rounded to the nearest integer, an exact half to the even one. -/
def roundDiv (numerator denominator : Nat) : Nat :=
  let quotient := numerator / denominator
  let twice := 2 * (numerator % denominator)
  if twice > denominator || (twice == denominator && quotient % 2 == 1) then quotient + 1
  else quotient

/-- The quotient of two numbers divided by `2 ^ exponent`, as numerator and
denominator. -/
def scaleDown (numerator denominator : Nat) (exponent : Int) : Nat × Nat :=
  if exponent < 0 then (numerator * Nat.pow 2 (-exponent).toNat, denominator)
  else (numerator, denominator * Nat.pow 2 exponent.toNat)

namespace Double

/-- The least exponent of a finite number. -/
def minExponent : Int := -1074

/-- The greatest exponent of a finite number. -/
def maxExponent : Int := 971

/-- Zero with a sign. -/
def zero (negative : Bool) : Double := finite negative 0 minExponent

/-- The number nearest to a quotient. -/
def ofRatio (negative : Bool) (numerator denominator : Nat) : Double :=
  if numerator == 0 then zero negative
  else
    let estimate : Int := (numerator.log2 : Int) - denominator.log2 - 52
    let (n, d) := scaleDown numerator denominator estimate
    let exponent := max minExponent (if n / d < Nat.pow 2 52 then estimate - 1 else estimate)
    let (n, d) := scaleDown numerator denominator exponent
    let significand := roundDiv n d
    let (significand, exponent) :=
      if significand == Nat.pow 2 53 then (Nat.pow 2 52, exponent + 1) else (significand, exponent)
    if exponent > maxExponent then infinite negative
    else finite negative significand exponent

/-- The number nearest to `digits * 10 ^ exponent`. Exponents far outside the
range are decided by the size alone. -/
def ofDecimal (negative : Bool) (digits : Nat) (exponent : Int) : Double :=
  let size : Int := (toString digits).length + exponent
  if digits == 0 || size < -400 then zero negative
  else if size > 400 then infinite negative
  else if exponent < 0 then ofRatio negative digits (Nat.pow 10 (-exponent).toNat)
  else ofRatio negative (digits * Nat.pow 10 exponent.toNat) 1

/-- The number nearest to a natural number, if it is in range. -/
def ofNat? (n : Nat) : Option Double :=
  match ofRatio false n 1 with
  | finite negative significand exponent => some (finite negative significand exponent)
  | _ => none

/-- The number with the opposite sign. -/
def neg : Double → Double
  | finite negative significand exponent => finite (!negative) significand exponent
  | infinite negative => infinite (!negative)
  | nan => nan

/-- Either zero. -/
def isZero : Double → Bool
  | finite _ significand _ => significand == 0
  | _ => false

/-- Neither infinite nor without a value. -/
def isFinite : Double → Bool
  | finite .. => true
  | _ => false

/-- The exact value of a finite number as a signed numerator and a denominator. -/
def ratio? : Double → Option (Int × Nat)
  | finite negative significand exponent =>
      let (n, d) := scaleDown significand 1 (-exponent)
      some (if negative then -(n : Int) else n, d)
  | _ => none

/-- The rounded product. -/
def mul : Double → Double → Double
  | nan, _ | _, nan => nan
  | finite negative m e, finite negative' m' e' =>
      let (n, d) := scaleDown (m * m') 1 (-(e + e'))
      ofRatio (negative != negative') n d
  | infinite negative, finite negative' m _ | finite negative m _, infinite negative' =>
      if m == 0 then nan else infinite (negative != negative')
  | infinite negative, infinite negative' => infinite (negative != negative')

/-- The rounded sum. A sum of zero is negative only if both parts are. -/
def add : Double → Double → Double
  | nan, _ | _, nan => nan
  | infinite negative, infinite negative' =>
      if negative == negative' then infinite negative else nan
  | infinite negative, finite .. | finite .., infinite negative => infinite negative
  | finite negative m e, finite negative' m' e' =>
      let least := min e e'
      let signed (negative : Bool) (m : Nat) (e : Int) : Int :=
        let scaled : Int := m * Nat.pow 2 (e - least).toNat
        if negative then -scaled else scaled
      let sum := signed negative m e + signed negative' m' e'
      if sum == 0 then zero (negative && negative')
      else
        let (n, d) := scaleDown sum.natAbs 1 (-least)
        ofRatio (sum < 0) n d

end Double

end SlashBot.Number

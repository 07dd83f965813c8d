import SlashBot.Number.Double

/-!
# Shortest decimal text

A floating-point number is written with the fewest digits that are read back as
the same number, and among those with the digits nearest to it. Numbers of
moderate size are written positionally, the others with an exponent.
-/

namespace SlashBot.Number

/-- The digits of a decimal number and the place of its point: the value is the
digits read as a fraction behind `0.`, times ten to the power of the point. -/
structure Decimal where
  digits : List Char
  point : Int
  deriving DecidableEq

/-- The digits of a natural number; zero has none. -/
def digitsOf (n : Nat) : List Char :=
  if n == 0 then [] else Nat.toDigits 10 n

/-- The point of a positive quotient: the least power of ten above it. -/
def pointOf (numerator denominator : Nat) : Int :=
  if denominator ≤ numerator then (digitsOf (numerator / denominator)).length
  else
    let inverse := (denominator + numerator - 1) / numerator
    1 - ((digitsOf (inverse - 1)).length : Int)

namespace Double

/-- The numbers that are read back as a finite number lie around it, measured in
quarters of its last place: two quarters above, and below two or, at a power of
two, one. The ends belong to them if the significand is even. -/
def readsBack (significand : Nat) (exponent : Int) (numerator denominator : Nat) : Bool :=
  let below := if significand == Nat.pow 2 52 && exponent > minExponent then 1 else 2
  let (n, d) := scaleDown numerator denominator (exponent - 2)
  let low := (4 * significand - below) * d
  let high := (4 * significand + 2) * d
  if significand % 2 == 0 then low ≤ n && n ≤ high else low < n && n < high

/-- The best decimal number with `count` digits, if one is read back as the
number: of the two neighbours on the decimal grid the nearer, or the even one. -/
def withDigits? (significand : Nat) (exponent : Int) (count : Nat) : Option Decimal :=
  let (n, d) := scaleDown significand 1 (-exponent)
  let point := pointOf n d
  let unit := point - count
  let grid (k : Nat) : Nat × Nat :=
    if unit < 0 then (k, Nat.pow 10 (-unit).toNat) else (k * Nat.pow 10 unit.toNat, 1)
  let (n, d) :=
    if unit < 0 then (n * Nat.pow 10 (-unit).toNat, d) else (n, d * Nat.pow 10 unit.toNat)
  let floor := n / d
  let nearest := roundDiv n d
  let other := if nearest == floor then floor + 1 else floor
  let fits (k : Nat) : Bool :=
    let (kn, kd) := grid k
    k > 0 && readsBack significand exponent kn kd
  let chosen? := if fits nearest then some nearest else if fits other then some other else none
  chosen?.map fun chosen =>
    let digits := digitsOf chosen
    ⟨digits, point + digits.length - count⟩

/-- The fewest digits that are read back as the number; seventeen always are. -/
def shortest (significand : Nat) (exponent : Int) : Decimal :=
  ((List.range 17).findSome? fun i => withDigits? significand exponent (i + 1)).getD ⟨[], 0⟩

end Double

/-- The layout of decimal numbers: positional if the leading digit stands from
four places behind the point to sixteen before it, and always with a point. -/
def Decimal.layout (decimal : Decimal) : String :=
  let digits := ((decimal.digits.reverse.dropWhile (· == '0')).reverse)
  let zeros (n : Int) : List Char := List.replicate n.toNat '0'
  let point := decimal.point
  if -4 < point ∧ point ≤ 16 then
    if point ≤ 0 then String.ofList ('0' :: '.' :: zeros (-point) ++ digits)
    else
      let whole := digits.take point.toNat ++ zeros (point - digits.length)
      let fraction := digits.drop point.toNat
      String.ofList (whole ++ '.' :: if fraction.isEmpty then ['0'] else fraction)
  else
    let power := (point - 1).natAbs
    let mantissa :=
      match digits with
      | first :: second :: rest => first :: '.' :: second :: rest
      | digits => digits
    String.ofList mantissa ++ (if point < 1 then "e-" else "e+") ++
      (if power < 10 then "0" else "") ++ toString power

/-- The text of a number. -/
def Double.text : (number : Double) → String
  | .nan => "nan"
  | .infinite negative => if negative then "-inf" else "inf"
  | .finite negative significand exponent =>
      (if negative then "-" else "") ++
        if significand == 0 then "0.0" else (shortest significand exponent).layout

end SlashBot.Number

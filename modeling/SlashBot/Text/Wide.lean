/-!
# Wide encodings

JSON may also be sent in UTF-16 or UTF-32, in either order of octets. A text with
an incomplete unit or an unpaired surrogate is refused.
-/

namespace SlashBot.Text

/-- The order of the octets inside a unit. -/
inductive OctetOrder where
  | bigEndian
  | littleEndian

namespace OctetOrder

/-- The number that two octets denote. -/
def unit16 : (order : OctetOrder) → (first second : UInt8) → Nat
  | bigEndian, first, second => first.toNat * 256 + second.toNat
  | littleEndian, first, second => second.toNat * 256 + first.toNat

/-- The number that four octets denote. -/
def unit32 (order : OctetOrder) (first second third fourth : UInt8) : Nat :=
  match order with
  | bigEndian => order.unit16 first second * 65536 + order.unit16 third fourth
  | littleEndian => order.unit16 third fourth * 65536 + order.unit16 first second

end OctetOrder

/-- The units of sixteen bits that the octets form, if none is left over. -/
def units16? (order : OctetOrder) : (octets : List UInt8) → Option (List Nat)
  | [] => some []
  | [_] => none
  | first :: second :: rest => (units16? order rest).map (order.unit16 first second :: ·)

/-- The units of thirty-two bits that the octets form, if none is left over. -/
def units32? (order : OctetOrder) : (octets : List UInt8) → Option (List Nat)
  | [] => some []
  | first :: second :: third :: fourth :: rest =>
      (units32? order rest).map (order.unit32 first second third fourth :: ·)
  | _ => none

/-- The first half of a pair that stands for one character. -/
def isHighSurrogate (unit : Nat) : Bool :=
  0xd800 ≤ unit && unit < 0xdc00

/-- The second half of a pair that stands for one character. -/
def isLowSurrogate (unit : Nat) : Bool :=
  0xdc00 ≤ unit && unit < 0xe000

/-- The character that a pair of surrogates stands for. -/
def pairedChar (high low : Nat) : Char :=
  Char.ofNat (0x10000 + (high - 0xd800) * 1024 + (low - 0xdc00))

/-- The characters that units of sixteen bits stand for. -/
def charsOfUnits16? : (units : List Nat) → Option (List Char)
  | [] => some []
  | [unit] =>
      if isHighSurrogate unit || isLowSurrogate unit then none else some [Char.ofNat unit]
  | unit :: next :: rest =>
      if isHighSurrogate unit then
        if isLowSurrogate next then (charsOfUnits16? rest).map (pairedChar unit next :: ·)
        else none
      else if isLowSurrogate unit then none
      else (charsOfUnits16? (next :: rest)).map (Char.ofNat unit :: ·)

/-- The characters of a text in UTF-16. -/
def decodeUtf16? (order : OctetOrder) (octets : List UInt8) : Option (List Char) := do
  charsOfUnits16? (← units16? order octets)

/-- The characters of a text in UTF-32. -/
def decodeUtf32? (order : OctetOrder) (octets : List UInt8) : Option (List Char) := do
  (← units32? order octets).mapM fun unit =>
    if isHighSurrogate unit || isLowSurrogate unit || unit > 0x10ffff then none
    else some (Char.ofNat unit)

end SlashBot.Text

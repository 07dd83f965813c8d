/-!
# Digits

Decimal numbers may be written in any of the digit scripts of Unicode: each of
them has its ten digits in a row, so the table holds the zeros. Hexadecimal
digits are the usual sixteen.
-/

namespace SlashBot.Text

/-- The zero of every decimal script. -/
def decimalZeros : List Nat :=
  [0x30, 0x660, 0x6f0, 0x7c0, 0x966, 0x9e6, 0xa66, 0xae6, 0xb66, 0xbe6, 0xc66, 0xce6, 0xd66, 0xde6,
   0xe50, 0xed0, 0xf20, 0x1040, 0x1090, 0x17e0, 0x1810, 0x1946, 0x19d0, 0x1a80, 0x1a90, 0x1b50,
   0x1bb0, 0x1c40, 0x1c50, 0xa620, 0xa8d0, 0xa900, 0xa9d0, 0xa9f0, 0xaa50, 0xabf0, 0xff10,
   0x104a0, 0x10d30, 0x11066, 0x110f0, 0x11136, 0x111d0, 0x112f0, 0x11450, 0x114d0, 0x11650,
   0x116c0, 0x11730, 0x118e0, 0x11950, 0x11c50, 0x11d50, 0x11da0, 0x16a60, 0x16ac0, 0x16b50,
   0x1d7ce, 0x1d7d8, 0x1d7e2, 0x1d7ec, 0x1d7f6, 0x1e140, 0x1e2f0, 0x1e950, 0x1fbf0]

/-- The number that a decimal digit of any script stands for. -/
def decimalDigit? (c : Char) : Option Nat :=
  let code := c.toNat
  (decimalZeros.find? fun start => start ≤ code && code ≤ start + 9).map fun start => code - start

/-- The number that a digit or a letter of the alphabet stands for, where letters
continue after nine. -/
def asciiDigit? (c : Char) : Option Nat :=
  let code := c.toNat
  if 48 ≤ code ∧ code ≤ 57 then some (code - 48)
  else if 65 ≤ code ∧ code ≤ 90 then some (code - 55)
  else if 97 ≤ code ∧ code ≤ 122 then some (code - 87)
  else none

/-- The number that a hexadecimal digit stands for. -/
def hexDigit? (c : Char) : Option Nat :=
  (asciiDigit? c).filter (· < 16)

/-- A digit from 0 to 9. -/
def isAsciiDigit (c : Char) : Bool :=
  48 ≤ c.toNat && c.toNat ≤ 57

/-- A letter from A to Z in either case, or a digit from 0 to 9. -/
def isAsciiAlphanumeric (c : Char) : Bool :=
  (asciiDigit? c).isSome

/-- The number that a run of hexadecimal digits denotes, if all of them are. -/
def hexNumber? (digits : List Char) : Option Nat :=
  digits.foldl (fun total c => do return (← total) * 16 + (← hexDigit? c)) (some 0)

/-- The lower-case hexadecimal digit of a number below sixteen. -/
def lowerHexDigit (n : Nat) : Char :=
  if n < 10 then Char.ofNat (48 + n) else Char.ofNat (87 + n)

/-- The upper-case hexadecimal digit of a number below sixteen. -/
def upperHexDigit (n : Nat) : Char :=
  if n < 10 then Char.ofNat (48 + n) else Char.ofNat (55 + n)

/-- The last `width` hexadecimal digits of a number, in lower case and with
leading zeros. -/
def lowerHex : (width : Nat) → (n : Nat) → List Char
  | 0, _ => []
  | width + 1, n => lowerHex width (n / 16) ++ [lowerHexDigit (n % 16)]

/-- A number in decimal, filled with zeros up to the width. -/
def zeroFilled (width n : Nat) : String :=
  let digits := toString n
  String.ofList (List.replicate (width - digits.length) '0') ++ digits

end SlashBot.Text

import SlashBot.Text.Digit
import SlashBot.Text.Utf8

/-!
# Percent encoding

A character that may not stand in a place of a URL is written as its octets, each
as a percent sign and two hexadecimal digits.
-/

namespace SlashBot.Text

/-- An octet as a percent sign and two hexadecimal digits in upper case. -/
def percentOctet (octet : UInt8) : List Char :=
  ['%', upperHexDigit (octet.toNat / 16), upperHexDigit (octet.toNat % 16)]

/-- The text with every character outside the safe ones percent-encoded. -/
def percentEncode (safe : Char → Bool) (text : List Char) : List Char :=
  text.flatMap fun c =>
    if safe c then [c] else (String.utf8EncodeChar c).flatMap percentOctet

/-- The characters that stand for themselves everywhere in a URL. -/
def isUnreserved (c : Char) : Bool :=
  isAsciiAlphanumeric c || c == '_' || c == '.' || c == '-' || c == '~'

/-- A text as one component of a path. -/
def percentComponent (text : List Char) : List Char :=
  percentEncode isUnreserved text

end SlashBot.Text

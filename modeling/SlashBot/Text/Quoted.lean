import SlashBot.Text.Digit
import SlashBot.Text.Printable

/-!
# Quoted text

Values that appear inside a message are quoted. Single quotes are preferred;
double quotes are taken when the text holds a single quote and no double one.
The chosen quote, backslashes and hidden characters are written as escapes.
-/

namespace SlashBot.Text

/-- The quote that needs the fewest escapes, single if both serve. -/
def preferredQuote (single double : Bool) : Char :=
  if single && !double then '"' else '\''

/-- A character as it stands inside a quoted text. -/
def escaped (quote c : Char) : List Char :=
  let code := c.toNat
  if c == quote || c == '\\' then ['\\', c]
  else if c == '\n' then ['\\', 'n']
  else if c == '\r' then ['\\', 'r']
  else if c == '\t' then ['\\', 't']
  else if isPrintable c then [c]
  else if code < 0x100 then '\\' :: 'x' :: lowerHex 2 code
  else if code < 0x10000 then '\\' :: 'u' :: lowerHex 4 code
  else '\\' :: 'U' :: lowerHex 8 code

/-- A text between quotes. -/
def quoted (text : List Char) : List Char :=
  let quote := preferredQuote (text.contains '\'') (text.contains '"')
  quote :: text.flatMap (escaped quote) ++ [quote]

/-- An octet as it stands inside a quoted octet string. -/
def escapedOctet (quote : Char) (octet : UInt8) : List Char :=
  let c := Char.ofNat octet.toNat
  if octet < 127 then
    if isPrintable c || c == '\n' || c == '\r' || c == '\t' then escaped quote c
    else '\\' :: 'x' :: lowerHex 2 octet.toNat
  else '\\' :: 'x' :: lowerHex 2 octet.toNat

/-- An octet string between quotes, with the mark that tells it from a text. -/
def quotedOctets (octets : List UInt8) : List Char :=
  let quote := preferredQuote (octets.contains 39) (octets.contains 34)
  'b' :: quote :: octets.flatMap (escapedOctet quote) ++ [quote]

end SlashBot.Text

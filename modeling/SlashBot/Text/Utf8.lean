/-!
# Octets and characters

Replies and deliveries arrive as octets. They are read as UTF-8 in two ways: the
strict reading refuses anything that is not well formed, and the lenient one
shows a replacement character for each maximal part of a sequence that breaks
off.
-/

namespace SlashBot.Text

/-- The octets of a text in UTF-8. -/
def encodeUtf8 (text : List Char) : List UInt8 :=
  text.flatMap String.utf8EncodeChar

/-- A reader of octets stands between two characters, or inside a sequence: then
it holds the bits so far, the number of octets that must follow, and the range of
the next one. -/
inductive Utf8Reader where
  | between
  | inside (bits following : Nat) (low high : UInt8)

namespace Utf8Reader

/-- Reads an octet between two characters. The range of the second octet rules
out overlong forms, surrogates and numbers beyond the last character. -/
def start (octet : UInt8) : List (Option Char) × Utf8Reader :=
  let n := octet.toNat
  if n < 0x80 then ([some (Char.ofNat n)], between)
  else if n < 0xc2 then ([none], between)
  else if n < 0xe0 then ([], inside (n - 0xc0) 1 0x80 0xbf)
  else if n == 0xe0 then ([], inside 0 2 0xa0 0xbf)
  else if n == 0xed then ([], inside 0xd 2 0x80 0x9f)
  else if n < 0xf0 then ([], inside (n - 0xe0) 2 0x80 0xbf)
  else if n == 0xf0 then ([], inside 0 3 0x90 0xbf)
  else if n < 0xf4 then ([], inside (n - 0xf0) 3 0x80 0xbf)
  else if n == 0xf4 then ([], inside 4 3 0x80 0x8f)
  else ([none], between)

/-- Reads one octet. A sequence that breaks off gives `none`, and the octet that
broke it starts anew. -/
def step (reader : Utf8Reader) (octet : UInt8) : List (Option Char) × Utf8Reader :=
  match reader with
  | between => start octet
  | inside bits following low high =>
      if low ≤ octet ∧ octet ≤ high then
        let bits := bits * 64 + octet.toNat % 64
        if following ≤ 1 then ([some (Char.ofNat bits)], between)
        else ([], inside bits (following - 1) 0x80 0xbf)
      else
        let (read, next) := start octet
        (none :: read, next)

/-- All that a reader finds in the octets. -/
def readAll : (reader : Utf8Reader) → (octets : List UInt8) → List (Option Char)
  | between, [] => []
  | inside .., [] => [none]
  | reader, octet :: rest =>
      let (read, next) := reader.step octet
      read ++ readAll next rest

end Utf8Reader

/-- The characters that the octets encode, if they are well formed. -/
def decodeUtf8? (octets : List UInt8) : Option (List Char) :=
  (Utf8Reader.between.readAll octets).mapM id

/-- The characters that the octets encode, with a replacement character for each
part that is not well formed. -/
def decodeUtf8Leniently (octets : List UInt8) : List Char :=
  (Utf8Reader.between.readAll octets).map fun read => read.getD (Char.ofNat 0xfffd)

end SlashBot.Text

import SlashBot.Digest.Sha256
import SlashBot.Text.Digit

/-!
# Keyed digests

The digest of a message under a key that the sender and the receiver share. A key
longer than a block is replaced by its digest, and a shorter one is filled with
zeros.
-/

namespace SlashBot.Digest

/-- The key as one block. -/
def keyBlock (key : List UInt8) : List UInt8 :=
  let short := if key.length > 64 then sha256 key else key
  short ++ List.replicate (64 - short.length) 0

/-- The digest of a message under a key. -/
def hmacSha256 (key message : List UInt8) : List UInt8 :=
  let block := keyBlock key
  let inner := sha256 (block.map (· ^^^ 0x36) ++ message)
  sha256 (block.map (· ^^^ 0x5c) ++ inner)

/-- Octets as hexadecimal digits in lower case. -/
def hexText (octets : List UInt8) : String :=
  String.ofList (octets.flatMap fun octet => Text.lowerHex 2 octet.toNat)

end SlashBot.Digest

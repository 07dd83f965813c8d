/-!
# SHA-256

The digest of a message: the message is padded to blocks of sixty-four octets, and
each block is mixed into eight words of thirty-two bits.
-/

namespace SlashBot.Digest

/-- The words that a digest starts from: fractions of square roots of primes. -/
def initialWords : List UInt32 :=
  [0x6a09e667, 0xbb67ae85, 0x3c6ef372, 0xa54ff53a, 0x510e527f, 0x9b05688c, 0x1f83d9ab, 0x5be0cd19]

/-- The words of the rounds: fractions of cube roots of primes. -/
def roundWords : List UInt32 :=
  [0x428a2f98, 0x71374491, 0xb5c0fbcf, 0xe9b5dba5, 0x3956c25b, 0x59f111f1, 0x923f82a4, 0xab1c5ed5,
   0xd807aa98, 0x12835b01, 0x243185be, 0x550c7dc3, 0x72be5d74, 0x80deb1fe, 0x9bdc06a7, 0xc19bf174,
   0xe49b69c1, 0xefbe4786, 0x0fc19dc6, 0x240ca1cc, 0x2de92c6f, 0x4a7484aa, 0x5cb0a9dc, 0x76f988da,
   0x983e5152, 0xa831c66d, 0xb00327c8, 0xbf597fc7, 0xc6e00bf3, 0xd5a79147, 0x06ca6351, 0x14292967,
   0x27b70a85, 0x2e1b2138, 0x4d2c6dfc, 0x53380d13, 0x650a7354, 0x766a0abb, 0x81c2c92e, 0x92722c85,
   0xa2bfe8a1, 0xa81a664b, 0xc24b8b70, 0xc76c51a3, 0xd192e819, 0xd6990624, 0xf40e3585, 0x106aa070,
   0x19a4c116, 0x1e376c08, 0x2748774c, 0x34b0bcb5, 0x391c0cb3, 0x4ed8aa4a, 0x5b9cca4f, 0x682e6ff3,
   0x748f82ee, 0x78a5636f, 0x84c87814, 0x8cc70208, 0x90befffa, 0xa4506ceb, 0xbef9a3f7, 0xc67178f2]

/-- The word with its bits rotated to the right. -/
def rotate (word count : UInt32) : UInt32 :=
  (word >>> count) ||| (word <<< (32 - count))

/-- The octets of a number, the highest first. -/
def octetsOf : (count : Nat) → (n : Nat) → List UInt8
  | 0, _ => []
  | count + 1, n => octetsOf count (n / 256) ++ [UInt8.ofNat (n % 256)]

/-- The number that octets denote, the highest first. -/
def numberOf (octets : List UInt8) : Nat :=
  octets.foldl (fun total octet => total * 256 + octet.toNat) 0

/-- The message with a one bit, zeros and its length in bits, which fills blocks. -/
def pad (message : List UInt8) : List UInt8 :=
  let length := message.length
  message ++ 0x80 :: List.replicate ((119 - length % 64) % 64) 0 ++ octetsOf 8 (8 * length)

/-- The pieces of a list that have the given size. -/
def chunks {α : Type} (size : Nat) : (fuel : Nat) → (items : List α) → List (List α)
  | 0, _ => []
  | _, [] => []
  | fuel + 1, items => items.take size :: chunks size fuel (items.drop size)

/-- The next word of a schedule, from the sixteen before it, the latest first. -/
def nextWord (latest : List UInt32) : UInt32 :=
  let nth (i : Nat) : UInt32 := latest.getD i 0
  let w := nth 1
  let v := nth 14
  (rotate w 17 ^^^ rotate w 19 ^^^ (w >>> 10)) + nth 6 +
    (rotate v 7 ^^^ rotate v 18 ^^^ (v >>> 3)) + nth 15

/-- Extends a schedule, held in reverse, by a number of words. -/
def extend : (count : Nat) → (latest : List UInt32) → List UInt32
  | 0, latest => latest
  | count + 1, latest => extend count (nextWord latest :: latest)

/-- The sixty-four words of a block. -/
def schedule (block : List UInt8) : List UInt32 :=
  let words := (chunks 4 16 block).map fun octets => UInt32.ofNat (numberOf octets)
  (extend 48 words.reverse).reverse

/-- The eight words while a block is mixed in. -/
structure State where
  a : UInt32
  b : UInt32
  c : UInt32
  d : UInt32
  e : UInt32
  f : UInt32
  g : UInt32
  h : UInt32

/-- One round. -/
def State.mix (state : State) (word : UInt32) : State :=
  let ⟨a, b, c, d, e, f, g, h⟩ := state
  let first := h + (rotate e 6 ^^^ rotate e 11 ^^^ rotate e 25) +
    ((e &&& f) ^^^ (~~~e &&& g)) + word
  let second := (rotate a 2 ^^^ rotate a 13 ^^^ rotate a 22) +
    ((a &&& b) ^^^ (a &&& c) ^^^ (b &&& c))
  ⟨first + second, a, b, c, d + first, e, f, g⟩

/-- The state as a list of words. -/
def State.toList (state : State) : List UInt32 :=
  [state.a, state.b, state.c, state.d, state.e, state.f, state.g, state.h]

/-- The state with the given words. -/
def State.ofList (words : List UInt32) : State :=
  let nth (i : Nat) : UInt32 := words.getD i 0
  ⟨nth 0, nth 1, nth 2, nth 3, nth 4, nth 5, nth 6, nth 7⟩

/-- The words after a block. -/
def compress (words : List UInt32) (block : List UInt8) : List UInt32 :=
  let rounds := List.zipWith (· + ·) (schedule block) roundWords
  List.zipWith (· + ·) words (rounds.foldl State.mix (.ofList words)).toList

/-- The digest of a message. -/
def sha256 (message : List UInt8) : List UInt8 :=
  let padded := pad message
  ((chunks 64 padded.length padded).foldl compress initialWords).flatMap
    fun word => octetsOf 4 word.toNat

end SlashBot.Digest

import SlashBot.Text.Digit

/-!
# Base64

File contents are sent in base64, broken into lines. The reading is lenient:
characters outside the alphabet are passed over, and reading ends with the first
group that padding completes. Only a group that stays incomplete is an error.
-/

namespace SlashBot.Text

/-- The number from 0 to 63 that a character of the alphabet stands for. -/
def base64Digit? (c : Char) : Option Nat :=
  let code := c.toNat
  if 65 ≤ code ∧ code ≤ 90 then some (code - 65)
  else if 97 ≤ code ∧ code ≤ 122 then some (code - 71)
  else if 48 ≤ code ∧ code ≤ 57 then some (code + 4)
  else if c == '+' then some 62
  else if c == '/' then some 63
  else none

/-- How far a group of four characters has been read, with the bits that wait for
the next one. After two characters, padding takes two marks to complete it. -/
inductive Base64Group where
  | empty
  | one (bits : Nat)
  | two (bits : Nat) (padded : Bool)
  | three (bits : Nat)

namespace Base64Group

/-- Takes a digit into the group and gives the octet that it completes. -/
def push (group : Base64Group) (digit : Nat) : List UInt8 × Base64Group :=
  match group with
  | empty => ([], one digit)
  | one bits => ([UInt8.ofNat (bits * 4 + digit / 16)], two (digit % 16) false)
  | two bits _ => ([UInt8.ofNat (bits * 16 + digit / 4)], three (digit % 4))
  | three bits => ([UInt8.ofNat (bits * 64 + digit)], empty)

/-- Takes a padding mark; `none` means that the group is complete. -/
def pad : (group : Base64Group) → Option Base64Group
  | two bits false => some (two bits true)
  | two _ true | three _ => none
  | group => some group

/-- The octets that the rest of the text encodes, or `none` if a group is left
incomplete. -/
def decode : (group : Base64Group) → (text : List Char) → Option (List UInt8)
  | empty, [] => some []
  | _, [] => none
  | group, c :: rest =>
      if c == '=' then
        match group.pad with
        | some group => decode group rest
        | none => some []
      else
        match base64Digit? c with
        | none => decode group rest
        | some digit =>
            let (octets, group) := group.push digit
            (decode group rest).map (octets ++ ·)

end Base64Group

/-- The octets that a text in base64 encodes. -/
def decodeBase64? (text : List Char) : Option (List UInt8) :=
  Base64Group.empty.decode text

end SlashBot.Text

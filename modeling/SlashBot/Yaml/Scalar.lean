import SlashBot.Number.Decimal
import SlashBot.Text.Base64
import SlashBot.Text.Case
import SlashBot.Text.Utf8
import SlashBot.Value.Basic
import SlashBot.Yaml.Implicit
import SlashBot.Fault

/-!
# The value of a scalar

Each known tag reads the text of a scalar in its own way. A tag that was written
out may stand at a text that does not fit it, which is then a fault of the
reading and not of the document's form.
-/

namespace SlashBot.Yaml

open SlashBot.Number
open SlashBot.Text

/-- What a truth word means. -/
def boolMeaning? (word : String) : Option Bool :=
  match word with
  | "yes" | "true" | "on" => some true
  | "no" | "false" | "off" => some false
  | _ => none

/-- The truth value that a word denotes, in any case. -/
def readBool (text : List Char) : Except Fault Value :=
  let word := String.ofList (lower text)
  match boolMeaning? word with
  | some truth => .ok (.bool truth)
  | none => .error (.missingKey word)

/-- The text without underscores. -/
def dropUnderscores (text : List Char) : List Char :=
  text.filter (· != '_')

/-- The integer that a text denotes in a base. -/
def readBase (base : Nat) (text : List Char) : Except Fault Int :=
  match readInteger? base text with
  | some number => .ok number
  | none => .error .badValue

/-- An integer written in groups of sixty. -/
def readSixties (text : List Char) : Except Fault Int := do
  let groups ← (splitWhere (· == ':') text).mapM (readBase 10)
  return groups.foldl (fun total group => total * 60 + group) 0

/-- An integer without the sign in front of it. -/
def readUnsignedInt (text : List Char) : Except Fault Int :=
  match text with
  | [] => .error .outOfRange
  | ['0'] => .ok 0
  | '0' :: 'b' :: digits => readBase 2 digits
  | '0' :: 'x' :: digits => readBase 16 digits
  | '0' :: _ => readBase 8 text
  | _ => if text.contains ':' then readSixties text else readBase 10 text

/-- The integer that a text denotes: in base two, eight, ten or sixteen, or in
groups of sixty. -/
def readInt (text : List Char) : Except Fault Value :=
  match dropUnderscores text with
  | [] => .error .outOfRange
  | text =>
      let (negative, unsigned) := takeSign text
      (readUnsignedInt unsigned).map fun number => .int (if negative then -number else number)

/-- The floating-point number that a text denotes. -/
def readDouble (text : List Char) : Except Fault Double :=
  match readDouble? text with
  | some number => .ok number
  | none => .error .badValue

/-- The sum of groups of sixty from the last one on, each with the weight of its
place. Every step is rounded. -/
def addSixties (total : Double) (weight : Nat) : (groups : List Double) → Except Fault Double
  | [] => .ok total
  | group :: rest =>
      match Double.ofNat? weight with
      | some factor => addSixties (total.add (group.mul factor)) (weight * 60) rest
      | none => .error .tooLarge

/-- A floating-point number without the sign in front of it. -/
def readUnsignedFloat (text : List Char) : Except Fault Double := do
  match String.ofList text with
  | ".inf" => return .infinite false
  | ".nan" => return .nan
  | _ =>
      if text.contains ':' then
        let groups ← (splitWhere (· == ':') text).mapM readDouble
        addSixties (.zero false) 1 groups.reverse
      else readDouble text

/-- The floating-point number that a text denotes, in any case. -/
def readFloat (text : List Char) : Except Fault Value :=
  match lower (dropUnderscores text) with
  | [] => .error .outOfRange
  | text =>
      let (negative, unsigned) := takeSign text
      (readUnsignedFloat unsigned).map fun number =>
        .float (if negative then number.neg else number)

/-- The octets that a text in base64 encodes. -/
def readBinary (text : List Char) : Except Fault Value :=
  if text.all fun c => c.toNat < 128 then
    match decodeBase64? text with
    | some octets => .ok (.bytes octets)
    | none => .error .malformedConfig
  else .error .malformedConfig

/-- The number of microseconds in a fraction of a second, cut after six digits. -/
def microsecondsOf (fraction : List Char) : Nat :=
  let digits := (fraction.take 6).map fun c => c.toNat - 48
  ofDigits digits * Nat.pow 10 (6 - digits.length)

/-- The seconds by which a zone is ahead. -/
def offsetOf (zone : Option (Bool × List Char × List Char)) : Int :=
  match zone with
  | none => 0
  | some (behind, hours, minutes) =>
      let inMinutes : Int := ofDigits (takeDigits hours).1 * 60 + ofDigits (takeDigits minutes).1
      if behind then -(inMinutes * 60) else inMinutes * 60

/-- The date or the timestamp that a text denotes. -/
def readTimestamp (text : List Char) : Except Fault Value :=
  match TimestampText.ofText? (dropFinalBreak text) with
  | none => .error .noSuchMember
  | some fields =>
      let number (digits : List Char) : Nat := ofDigits (takeDigits digits).1
      match Date.of? (number fields.year) (number fields.month) (number fields.day) with
      | none => .error .badValue
      | some date =>
          match fields.clock with
          | none => .ok (.date date)
          | some (hour, minute, second) =>
              match Timestamp.of? date (number hour) (number minute) (number second)
                (microsecondsOf fields.fraction) (fields.zone.map offsetOf) with
              | some time => .ok (.timestamp time)
              | none => .error .badValue

/-- The value of a scalar with a tag. The tags of collections and those that mean
nothing as a value are refused. -/
def readScalar (tag : Tag) (text : String) : Except Fault Value :=
  match tag with
  | .str => .ok (.str text)
  | .null => .ok .null
  | .bool => readBool text.toList
  | .int => readInt text.toList
  | .float => readFloat text.toList
  | .binary => readBinary text.toList
  | .timestamp => readTimestamp text.toList
  | .omap | .pairs | .set | .seq | .map | .merge | .value | .unknown => .error .malformedConfig

end SlashBot.Yaml

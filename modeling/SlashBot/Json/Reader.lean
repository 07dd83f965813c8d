import SlashBot.Fault
import SlashBot.Number.Decimal
import SlashBot.Text.Utf8
import SlashBot.Text.Wide
import SlashBot.Value.Key

/-!
# Reading JSON

The usual grammar, with three words for the numbers that have no digits. A key
that occurs twice keeps its first place and its last value. A text must not start
with a byte order mark, while octets may: they choose their encoding by it, or by
the zeros among their first four.
-/

namespace SlashBot.Json

open SlashBot.Number
open SlashBot.Text

/-- The characters that may stand between the parts of a document. -/
def isSpace (c : Char) : Bool :=
  c == ' ' || c == '\t' || c == '\n' || c == '\r'

/-- The rest of the document after the spaces. -/
def skipSpace (text : List Char) : List Char :=
  text.dropWhile isSpace

/-- The four hexadecimal digits of an escape, and what follows them. -/
def readUnit? : (text : List Char) → Option (Nat × List Char)
  | a :: b :: c :: d :: rest => (hexNumber? [a, b, c, d]).map fun unit => (unit, rest)
  | _ => none

/-- The character after a backslash that stands for another one. -/
def plainEscape? (c : Char) : Option Char :=
  if c == '"' || c == '\\' || c == '/' then some c
  else if c == 'b' then some (Char.ofNat 8)
  else if c == 'f' then some (Char.ofNat 12)
  else if c == 'n' then some '\n'
  else if c == 'r' then some '\r'
  else if c == 't' then some '\t'
  else none

/-- A character written by its number, where two halves of a pair stand for one.
A half that stands alone is not a character and becomes a replacement. -/
def readEscapedChar? (text : List Char) : Option (Char × List Char) := do
  let (unit, rest) ← readUnit? text
  if isHighSurrogate unit then
    match rest with
    | '\\' :: 'u' :: more =>
        match readUnit? more with
        | some (low, after) =>
            if isLowSurrogate low then some (pairedChar unit low, after)
            else some (Char.ofNat 0xfffd, rest)
        | none => some (Char.ofNat 0xfffd, rest)
    | _ => some (Char.ofNat 0xfffd, rest)
  else if isLowSurrogate unit then some (Char.ofNat 0xfffd, rest)
  else some (Char.ofNat unit, rest)

/-- The characters up to the closing quote, collected in reverse, and what
follows the quote. -/
def readString? (reversed : List Char) : (fuel : Nat) → (text : List Char) →
    Option (String × List Char)
  | 0, _ => none
  | _, [] => none
  | fuel + 1, c :: rest =>
      if c == '"' then some (String.ofList reversed.reverse, rest)
      else if c == '\\' then
        match rest with
        | [] => none
        | 'u' :: rest =>
            match readEscapedChar? rest with
            | some (escaped, rest) => readString? (escaped :: reversed) fuel rest
            | none => none
        | mark :: rest =>
            match plainEscape? mark with
            | some escaped => readString? (escaped :: reversed) fuel rest
            | none => none
      else if c.toNat < 32 then none
      else readString? (c :: reversed) fuel rest

/-- Digits from 0 to 9 at the front of a text, and what follows them. -/
def takeAsciiDigits (text : List Char) : List Char × List Char :=
  (text.takeWhile isAsciiDigit, text.dropWhile isAsciiDigit)

/-- The digits of a fraction, if a point and a digit come next. -/
def takeFraction (text : List Char) : List Char × List Char :=
  match text with
  | '.' :: c :: rest => if isAsciiDigit c then takeAsciiDigits (c :: rest) else ([], text)
  | _ => ([], text)

/-- The value of an exponent, if one comes next. -/
def takeExponent (text : List Char) : Option Int × List Char :=
  match text with
  | mark :: rest =>
      if mark == 'e' || mark == 'E' then
        let (negative, unsigned) := takeSign rest
        match takeAsciiDigits unsigned with
        | ([], _) => (none, text)
        | (digits, rest) =>
            let n := (takeDigits digits).1
            (some (if negative then -(ofDigits n : Int) else ofDigits n), rest)
      else (none, text)
  | [] => (none, text)

/-- A number without its sign. -/
def readUnsigned (negative : Bool) (text : List Char) : Except Fault (Value × List Char) :=
  let (whole, rest) :=
    match text with
    | '0' :: rest => (['0'], rest)
    | text => takeAsciiDigits text
  if whole.isEmpty then .error .malformedJson
  else
    let (fraction, rest) := takeFraction rest
    let (exponent, rest) := takeExponent rest
    let digits := ofDigits (takeDigits (whole ++ fraction)).1
    if fraction.isEmpty && exponent.isNone then
      if whole.length > maxDecimalDigits then .error .badValue
      else .ok (.int (if negative then -(digits : Int) else digits), rest)
    else
      let exponent := exponent.getD 0 - fraction.length
      .ok (.float (Double.ofDecimal negative digits exponent), rest)

/-- The rest of a text after a word, if it starts with the word. -/
def afterWord? (word : String) (text : List Char) : Option (List Char) :=
  let letters := word.toList
  if letters.isPrefixOf text then some (text.drop letters.length) else none

/-- The words that are values. -/
def namedValues : List (String × Value) :=
  [("null", .null), ("true", .bool true), ("false", .bool false), ("NaN", .float .nan),
    ("Infinity", .float (.infinite false)), ("-Infinity", .float (.infinite true))]

/-- A value without parts of its own. -/
def readAtom (text : List Char) : Except Fault (Value × List Char) :=
  match namedValues.findSome? fun (word, value) =>
      (afterWord? word text).map fun rest => (value, rest) with
  | some found => .ok found
  | none =>
      match text with
      | '"' :: rest =>
          match readString? [] (rest.length + 1) rest with
          | some (string, rest) => .ok (.str string, rest)
          | none => .error .malformedJson
      | '-' :: rest => readUnsigned true rest
      | rest => readUnsigned false rest

mutual

/-- The value at the front of a text, and what follows it. -/
def readValue : (fuel : Nat) → (text : List Char) → Except Fault (Value × List Char)
  | 0, _ => .error .malformedJson
  | fuel + 1, text =>
      match text with
      | '[' :: rest =>
          match skipSpace rest with
          | ']' :: rest => .ok (.list [], rest)
          | rest => readItems fuel [] rest
      | '{' :: rest =>
          match skipSpace rest with
          | '}' :: rest => .ok (.map [], rest)
          | rest => readEntries fuel [] rest
      | text => readAtom text

/-- The items of a list from one of them on, after those in reverse. -/
def readItems : (fuel : Nat) → (reversed : List Value) → (text : List Char) →
    Except Fault (Value × List Char)
  | 0, _, _ => .error .malformedJson
  | fuel + 1, reversed, text =>
      match readValue fuel text with
      | .error fault => .error fault
      | .ok (item, rest) =>
          match skipSpace rest with
          | ',' :: rest => readItems fuel (item :: reversed) (skipSpace rest)
          | ']' :: rest => .ok (.list (item :: reversed).reverse, rest)
          | _ => .error .malformedJson

/-- The entries of a map from one of them on, after those already put. -/
def readEntries : (fuel : Nat) → (entries : List (Value × Value)) → (text : List Char) →
    Except Fault (Value × List Char)
  | 0, _, _ => .error .malformedJson
  | fuel + 1, entries, text =>
      match text with
      | '"' :: rest =>
          match readString? [] (rest.length + 1) rest with
          | none => .error .malformedJson
          | some (key, rest) =>
              match skipSpace rest with
              | ':' :: rest =>
                  match readValue fuel (skipSpace rest) with
                  | .error fault => .error fault
                  | .ok (value, rest) =>
                      let entries := Value.put (.str key) value entries
                      match skipSpace rest with
                      | ',' :: rest => readEntries fuel entries (skipSpace rest)
                      | '}' :: rest => .ok (.map entries, rest)
                      | _ => .error .malformedJson
              | _ => .error .malformedJson
      | _ => .error .malformedJson

end

/-- The value that a whole document denotes. -/
def ofDocument (text : List Char) : Except Fault Value :=
  match readValue (2 * text.length + 2) (skipSpace text) with
  | .error fault => .error fault
  | .ok (value, rest) => if (skipSpace rest).isEmpty then .ok value else .error .malformedJson

/-- The value that a text denotes. -/
def ofText (text : String) : Except Fault Value :=
  match text.toList with
  | c :: rest => if c.toNat == 0xfeff then .error .malformedJson else ofDocument (c :: rest)
  | [] => .error .malformedJson

/-- The marks that show the encoding of the octets behind them, each with the reader of these.
A mark of UTF-32 may start with one of UTF-16 and comes before it. -/
def marks : List (List UInt8 × (List UInt8 → Option (List Char))) :=
  [([0, 0, 0xfe, 0xff], decodeUtf32? .bigEndian),
    ([0xff, 0xfe, 0, 0], decodeUtf32? .littleEndian),
    ([0xfe, 0xff], decodeUtf16? .bigEndian),
    ([0xff, 0xfe], decodeUtf16? .littleEndian),
    ([0xef, 0xbb, 0xbf], decodeUtf8?)]

/-- The characters of a document without a mark. A document starts with ASCII, so the zeros
among its first octets show the encoding. -/
def decodeUnmarked? (octets : List UInt8) : Option (List Char) :=
  match octets.map (· == 0) with
  | true :: true :: _ :: _ :: _ => decodeUtf32? .bigEndian octets
  | true :: _ :: _ :: _ :: _ => decodeUtf16? .bigEndian octets
  | _ :: true :: true :: true :: _ => decodeUtf32? .littleEndian octets
  | _ :: true :: _ :: _ :: _ => decodeUtf16? .littleEndian octets
  | [true, _] => decodeUtf16? .bigEndian octets
  | [_, true] => decodeUtf16? .littleEndian octets
  | _ => decodeUtf8? octets

/-- The characters of a document, by the encoding that its first octets show. -/
def decodeOctets? (octets : List UInt8) : Option (List Char) :=
  match marks.find? fun (mark, _) => mark.isPrefixOf octets with
  | some (mark, read) => read (octets.drop mark.length)
  | none => decodeUnmarked? octets

/-- The value that octets denote. -/
def ofOctets (octets : List UInt8) : Except Fault Value :=
  match decodeOctets? octets with
  | some text => ofDocument text
  | none => .error .malformedText

end SlashBot.Json

import SlashBot.Fault
import SlashBot.Number.Integer
import SlashBot.Text.Utf8
import SlashBot.Yaml.Cursor
import SlashBot.Yaml.Token

/-!
# Names in a YAML document

Anchors, aliases, tags and directives. Each of them is a mark followed by a name,
and the name must be followed by a gap, or in the case of anchors by a character
that cannot belong to it.
-/

namespace SlashBot.Yaml

open SlashBot.Number
open SlashBot.Text

/-- The letters of names and handles. -/
def isNameChar (c : Char) : Bool :=
  isAsciiAlphanumeric c || c == '-' || c == '_'

/-- The characters of a tag that need no escape. -/
def isTagChar (c : Char) : Bool :=
  isAsciiAlphanumeric c || "-;/?:@&=+$,_.!~*'()[]".toList.contains c

/-- The characters that may follow a name of an anchor. -/
def mayFollowName (c : Char) : Bool :=
  isGap c || c == '?' || c == ':' || c == ',' || c == ']' || c.toNat == 125 || c == '%' ||
    c == '@' || c.toNat == 96

/-- The name behind the mark of an anchor or an alias. -/
def takeName (cursor : Cursor) : Except Fault (String × Cursor) :=
  let (name, after) := cursor.next.takeWhile isNameChar
  if name.isEmpty || !mayFollowName after.current then .error .malformedConfig
  else .ok (String.ofList name, after)

/-- The octets of consecutive escapes. -/
def takeEscapedOctets : (fuel : Nat) → (cursor : Cursor) → Except Fault (List UInt8 × Cursor)
  | 0, _ => .error .malformedConfig
  | fuel + 1, cursor =>
      if cursor.current == '%' then
        match hexNumber? [cursor.peek 1, cursor.peek 2] with
        | some octet => do
            let (octets, after) ← takeEscapedOctets fuel (cursor.skip 3)
            return (UInt8.ofNat octet :: octets, after)
        | none => .error .malformedConfig
      else .ok ([], cursor)

/-- The characters of a tag, where escapes must be well-formed UTF-8. -/
def takeTagChars : (fuel : Nat) → (cursor : Cursor) → Except Fault (List Char × Cursor)
  | 0, _ => .error .malformedConfig
  | fuel + 1, cursor =>
      let (run, after) := cursor.takeWhile isTagChar
      if after.current == '%' then do
        let (octets, after) ← takeEscapedOctets (after.rest.length + 1) after
        match decodeUtf8? octets with
        | some decoded =>
            let (more, after) ← takeTagChars fuel after
            return (run ++ decoded ++ more, after)
        | none => .error .malformedConfig
      else .ok (run, after)

/-- The suffix of a tag, which is not empty. -/
def takeTagSuffix (cursor : Cursor) : Except Fault (String × Cursor) := do
  let (chars, after) ← takeTagChars (cursor.rest.length + 1) cursor
  if after.index == cursor.index then .error .malformedConfig
  else return (String.ofList chars, after)

/-- A handle: an exclamation mark, or a name between two of them. -/
def takeHandle (cursor : Cursor) : Except Fault (String × Cursor) :=
  if cursor.current != '!' then .error .malformedConfig
  else if cursor.peek 1 == ' ' then .ok ("!", cursor.next)
  else
    let (name, after) := cursor.next.takeWhile isNameChar
    if after.current == '!' then .ok (String.ofList ('!' :: name ++ ['!']), after.next)
    else .error .malformedConfig

/-- A tag: in angle brackets, alone, or with a handle. -/
def takeTag (cursor : Cursor) : Except Fault (Token × Cursor) := do
  let following := cursor.peek 1
  let ((handle, suffix), after) ← show Except Fault ((Option String × String) × Cursor) from
    if following == '<' then do
      let (suffix, after) ← takeTagSuffix (cursor.skip 2)
      if after.current == '>' then return ((none, suffix), after.next)
      else .error .malformedConfig
    else if isGap following then .ok ((none, "!"), cursor.next)
    else
      let word := cursor.next.rest.takeWhile fun c => !isSpaceOrEnd c
      if word.contains '!' then do
        let (handle, after) ← takeHandle cursor
        let (suffix, after) ← takeTagSuffix after
        return ((some handle, suffix), after)
      else do
        let (suffix, after) ← takeTagSuffix cursor.next
        return ((some "!", suffix), after)
  if isSpaceOrEnd after.current then return (.tag handle suffix, after)
  else .error .malformedConfig

/-- A number of a version. -/
def takeVersionNumber (cursor : Cursor) : Except Fault (Int × Cursor) :=
  let (digits, after) := cursor.takeWhile isAsciiDigit
  if digits.isEmpty then .error .malformedConfig
  else
    match readInteger? 10 digits with
    | some number => .ok (number, after)
    | none => .error .badValue

/-- A version: two numbers with a point between them. -/
def takeVersion (cursor : Cursor) : Except Fault (Directive × Cursor) := do
  let (major, after) ← takeVersionNumber cursor.skipSpaces
  if after.current != '.' then .error .malformedConfig
  else
    let (_, after) ← takeVersionNumber after.next
    if isSpaceOrEnd after.current then return (.version major, after)
    else .error .malformedConfig

/-- A handle and the text that it stands for. -/
def takeHandleMeaning (cursor : Cursor) : Except Fault (Directive × Cursor) := do
  let (handle, after) ← takeHandle cursor.skipSpaces
  if after.current != ' ' then .error .malformedConfig
  else
    let (suffix, after) ← takeTagSuffix after.skipSpaces
    if isSpaceOrEnd after.current then return (.handle handle suffix, after)
    else .error .malformedConfig

/-- The rest of a line that may hold a comment only. -/
def takeLineEnd (cursor : Cursor) : Except Fault Cursor :=
  let cursor := cursor.skipSpaces.skipComment
  if isLineEnd cursor.current then .ok cursor.takeBreak.2 else .error .malformedConfig

/-- A directive, with the line that holds it. -/
def takeDirective (cursor : Cursor) : Except Fault (Token × Cursor) := do
  let (name, after) := cursor.next.takeWhile isNameChar
  if name.isEmpty || !isSpaceOrEnd after.current then .error .malformedConfig
  else
    let (directive, after) ← show Except Fault (Directive × Cursor) from
      match String.ofList name with
      | "YAML" => takeVersion after
      | "TAG" => takeHandleMeaning after
      | _ => .ok (.other, after.skipWhile fun c => !isLineEnd c)
    return (.directive directive, ← takeLineEnd after)

end SlashBot.Yaml

import SlashBot.Yaml.Name

/-!
# Quoted scalars

Between single quotes a quote is written twice and nothing else is special.
Between double quotes a backslash starts an escape. In both a line break is
folded: one break becomes a space, and of several the first is dropped.
-/

namespace SlashBot.Yaml

open SlashBot.Text

/-- The characters that a backslash and one character stand for. -/
def plainEscapes : List (Char × Nat) :=
  [('0', 0), ('a', 7), ('b', 8), ('t', 9), ('\t', 9), ('n', 10), ('v', 11), ('f', 12),
    ('r', 13), ('e', 27), (' ', 32), ('"', 34), ('\\', 92), ('/', 47), ('N', 0x85),
    ('_', 0xa0), ('L', 0x2028), ('P', 0x2029)]

/-- The number of hexadecimal digits of an escape by number. -/
def escapeWidth? (c : Char) : Option Nat :=
  if c == 'x' then some 2 else if c == 'u' then some 4 else if c == 'U' then some 8 else none

/-- The character with a number, or the reason why there is none. -/
def charOfNumber (number : Nat) : Except Fault Char :=
  if number > 0x7fffffff then .error .tooLarge
  else if number > 0x10ffff then .error .badValue
  else .ok (Char.ofNat number)

/-- The breaks at the cursor, with the blanks around them. A separator of
documents must not come inside a quoted scalar. -/
def takeQuotedBreaks : (fuel : Nat) → (reversed : List Char) → (cursor : Cursor) →
    Except Fault (List Char × Cursor)
  | 0, _, _ => .error .malformedConfig
  | fuel + 1, reversed, cursor =>
      if cursor.atSeparator then .error .malformedConfig
      else
        let cursor := cursor.skipWhile fun c => c == ' ' || c == '\t'
        if isBreak cursor.current then
          let (text, after) := cursor.takeBreak
          takeQuotedBreaks fuel (text ++ reversed) after
        else .ok (reversed, cursor)

/-- The breaks at the cursor. -/
def takeBreaksInQuotes (reversed : List Char) (cursor : Cursor) :
    Except Fault (List Char × Cursor) :=
  takeQuotedBreaks (cursor.rest.length + 1) reversed cursor

/-- The escape behind a backslash, put in front of the reversed text. -/
def takeEscape (reversed : List Char) (cursor : Cursor) : Except Fault (List Char × Cursor) := do
  let c := cursor.current
  match plainEscapes.lookup c, escapeWidth? c with
  | some number, _ => return (Char.ofNat number :: reversed, cursor.next)
  | none, some width =>
      match hexNumber? ((List.range width).map fun i => cursor.peek (i + 1)) with
      | some number =>
          let escaped ← charOfNumber number
          return (escaped :: reversed, cursor.skip (width + 1))
      | none => .error .malformedConfig
  | none, none =>
      if isBreak c then takeBreaksInQuotes reversed cursor.takeBreak.2
      else .error .malformedConfig

/-- Blanks and breaks between the words of a quoted scalar, folded. -/
def takeQuotedSpaces (reversed : List Char) (cursor : Cursor) : Except Fault (List Char × Cursor) :=
  let (blanks, after) := cursor.takeWhile fun c => c == ' ' || c == '\t'
  if after.current == endMark then .error .malformedConfig
  else if isBreak after.current then do
    let (first, after) := after.takeBreak
    let (breaks, after) ← takeBreaksInQuotes [] after
    let folded := if first != ['\n'] then first else if breaks.isEmpty then [' '] else []
    return (breaks ++ folded ++ reversed, after)
  else .ok (blanks.reverse ++ reversed, after)

/-- The text up to the closing quote, in reverse, and the place behind it. -/
def takeQuotedText (double : Bool) : (fuel : Nat) → (reversed : List Char) →
    (cursor : Cursor) → Except Fault (List Char × Cursor)
  | 0, _, _ => .error .malformedConfig
  | fuel + 1, reversed, cursor =>
      let c := cursor.current
      if isGap c then do
        let (reversed, after) ← takeQuotedSpaces reversed cursor
        takeQuotedText double fuel reversed after
      else if double then
        if c == '"' then .ok (reversed, cursor.next)
        else if c == '\\' then do
          let (reversed, after) ← takeEscape reversed cursor.next
          takeQuotedText double fuel reversed after
        else takeQuotedText double fuel (c :: reversed) cursor.next
      else if c == '\'' then
        if cursor.peek 1 == '\'' then takeQuotedText double fuel ('\'' :: reversed) (cursor.skip 2)
        else .ok (reversed, cursor.next)
      else takeQuotedText double fuel (c :: reversed) cursor.next

/-- A quoted scalar from its opening quote on. -/
def takeQuoted (cursor : Cursor) : Except Fault (Token × Cursor) := do
  let double := cursor.current == '"'
  let (reversed, after) ← takeQuotedText double (cursor.rest.length + 1) [] cursor.next
  return (.scalar (String.ofList reversed.reverse) false, after)

end SlashBot.Yaml

import SlashBot.Yaml.Name

/-!
# Plain scalars

A plain scalar starts with a character that marks nothing else and runs on, over
folded lines, until a mark, a comment or a line that is indented less.
-/

namespace SlashBot.Yaml

/-- The characters that mark something, at least where a gap follows them. -/
def isIndicator (c : Char) : Bool :=
  "-?:,[]\x7b\x7d#&*!|>'\"%@".toList.contains c || c.toNat == 96

/-- A plain scalar can start at the cursor. -/
def startsPlain (inFlow : Bool) (cursor : Cursor) : Bool :=
  let c := cursor.current
  !(isGap c || isIndicator c) ||
    (!isGap (cursor.peek 1) && (c == '-' || (!inFlow && (c == '?' || c == ':'))))

/-- The brackets, braces and commas of collections in one line. -/
def isFlowMark (c : Char) : Bool :=
  c == ',' || c == '[' || c == ']' || c.toNat == 123 || c.toNat == 125

/-- The number of characters up to the end of a word of a plain scalar. A colon
ends it if a gap follows, and inside brackets also if a mark follows. -/
def plainWordLength (inFlow : Bool) : (text : List Char) → Nat
  | [] => 0
  | c :: rest =>
      let following := rest.headD endMark
      if isGap c || (c == ':' && (isGap following || (inFlow && isFlowMark following))) ||
          (inFlow && (isFlowMark c || c == '?')) then 0
      else plainWordLength inFlow rest + 1

/-- The breaks between two lines of a plain scalar, in reverse, with the spaces
around them. `none` tells that a separator of documents ends the scalar. -/
def takePlainBreaks : (fuel : Nat) → (reversed : List Char) → (cursor : Cursor) →
    Option (List Char) × Cursor
  | 0, _, cursor => (none, cursor)
  | fuel + 1, reversed, cursor =>
      if cursor.current == ' ' then takePlainBreaks fuel reversed cursor.next
      else if isBreak cursor.current then
        let (text, after) := cursor.takeBreak
        if after.atSeparator then (none, after)
        else takePlainBreaks fuel (text ++ reversed) after
      else (some reversed, cursor)

/-- What stands between two words of a plain scalar: the folded text in reverse,
if the scalar may go on, and whether a line ended. -/
structure PlainGap where
  folded : Option (List Char)
  cursor : Cursor
  lineEnded : Bool

/-- Reads the gap behind a word of a plain scalar. -/
def takePlainGap (cursor : Cursor) : PlainGap :=
  let (spaces, after) := cursor.takeWhile (· == ' ')
  if isBreak after.current then
    let (first, after) := after.takeBreak
    if after.atSeparator then ⟨none, after, true⟩
    else
      match takePlainBreaks (after.rest.length + 1) [] after with
      | (none, after) => ⟨none, after, true⟩
      | (some breaks, after) =>
          let folded := if first != ['\n'] then first else if breaks.isEmpty then [' '] else []
          ⟨some (breaks ++ folded), after, true⟩
  else ⟨if spaces.isEmpty then none else some spaces, after, false⟩

/-- A plain scalar as it is read: its text in reverse, the place behind it, and
whether that place is on a new line. -/
structure PlainText where
  reversed : List Char
  cursor : Cursor
  lineEnded : Bool

/-- Reads words and the gaps between them. A gap belongs to the scalar only if a
word follows it. -/
def takePlainWords (inFlow : Bool) (indent : Int) : (fuel : Nat) → (gap : List Char) →
    (read : PlainText) → PlainText
  | 0, _, read => read
  | fuel + 1, gap, read =>
      let cursor := read.cursor
      let length := plainWordLength inFlow cursor.rest
      if cursor.current == '#' || length == 0 then read
      else
        let word := cursor.rest.take length
        let found := takePlainGap (cursor.skip length)
        let read := ⟨word.reverse ++ gap ++ read.reversed, found.cursor, found.lineEnded⟩
        match found.folded with
        | none => read
        | some gap =>
            if found.cursor.current == '#' || (!inFlow && found.cursor.column < indent) then read
            else takePlainWords inFlow indent fuel gap read

/-- A plain scalar at the cursor, for a collection with the given indentation. -/
def takePlain (inFlow : Bool) (indent : Int) (cursor : Cursor) : PlainText :=
  takePlainWords inFlow (indent + 1) (cursor.rest.length + 1) [] ⟨[], cursor, false⟩

end SlashBot.Yaml

import SlashBot.Yaml.Name

/-!
# Block scalars

A block scalar is a run of lines with a common indentation. A literal one keeps
its line breaks; a folded one joins lines that are not indented further. The
breaks at its end are kept, clipped to one or stripped.
-/

namespace SlashBot.Yaml

open SlashBot.Text

/-- What becomes of the breaks at the end of a block scalar. -/
inductive Chomping where
  | clip
  | strip
  | keep
  deriving DecidableEq

/-- The chomping that a sign asks for. -/
def chompingOf? (c : Char) : Option Chomping :=
  if c == '+' then some .keep else if c == '-' then some .strip else none

/-- The extra indentation that a digit asks for, which is not zero. -/
def takeIncrement (cursor : Cursor) : Except Fault (Option Nat × Cursor) :=
  let c := cursor.current
  if c == '0' then .error .malformedConfig
  else if isAsciiDigit c then .ok (some (c.toNat - 48), cursor.next)
  else .ok (none, cursor)

/-- The signs behind the mark of a block scalar, in either order, and the rest of
that line. -/
def takeBlockHeader (cursor : Cursor) : Except Fault ((Chomping × Option Nat) × Cursor) := do
  let ((chomping, increment), after) ← show Except Fault ((Chomping × Option Nat) × Cursor) from
    match chompingOf? cursor.current with
    | some chomping => do
        let (increment, after) ← takeIncrement cursor.next
        return ((chomping, increment), after)
    | none => do
        let (increment, after) ← takeIncrement cursor
        match increment, chompingOf? after.current with
        | some _, some chomping => return ((chomping, increment), after.next)
        | _, _ => return ((.clip, increment), after)
  if isSpaceOrEnd after.current then return ((chomping, increment), ← takeLineEnd after)
  else .error .malformedConfig

/-- The empty lines before the first line of a block scalar: their breaks in
reverse, and the widest indentation that they show. -/
def takeLeadingBreaks : (fuel : Nat) → (reversed : List Char) → (widest : Nat) →
    (cursor : Cursor) → List Char × Nat × Cursor
  | 0, reversed, widest, cursor => (reversed, widest, cursor)
  | fuel + 1, reversed, widest, cursor =>
      if cursor.current == ' ' then
        let after := cursor.next
        takeLeadingBreaks fuel reversed (max widest after.column) after
      else if isBreak cursor.current then
        let (text, after) := cursor.takeBreak
        takeLeadingBreaks fuel (text ++ reversed) widest after
      else (reversed, widest, cursor)

/-- The spaces of the indentation, as far as they go. -/
def skipIndent (indent : Nat) (cursor : Cursor) : Cursor :=
  cursor.skip ((cursor.rest.take (indent - cursor.column)).takeWhile (· == ' ')).length

/-- The empty lines at the cursor: their breaks in reverse, and the place behind
the indentation of the line that follows. -/
def takeIndentedBreaks (indent : Nat) : (fuel : Nat) → (reversed : List Char) →
    (cursor : Cursor) → List Char × Cursor
  | 0, reversed, cursor => (reversed, cursor)
  | fuel + 1, reversed, cursor =>
      let cursor := skipIndent indent cursor
      if isBreak cursor.current then
        let (text, after) := cursor.takeBreak
        takeIndentedBreaks indent fuel (text ++ reversed) after
      else (reversed, cursor)

/-- The empty lines at the cursor. -/
def takeEmptyLines (indent : Nat) (cursor : Cursor) : List Char × Cursor :=
  takeIndentedBreaks indent (cursor.rest.length + 1) [] cursor

/-- A line that starts with a blank is indented further and never folded. -/
def startsWithBlank (cursor : Cursor) : Bool :=
  cursor.current == ' ' || cursor.current == '\t'

/-- A block scalar as it is read: the text in reverse, the break behind its last
line, and the breaks of the empty lines after it. -/
structure BlockText where
  reversed : List Char
  lastBreak : List Char
  breaks : List Char
  cursor : Cursor

/-- Reads lines as long as they have the indentation. -/
def takeBlockLines (folded : Bool) (indent : Nat) : (fuel : Nat) → (read : BlockText) → BlockText
  | 0, read => read
  | fuel + 1, read =>
      let cursor := read.cursor
      if cursor.column != indent || cursor.current == endMark then read
      else
        let plainStart := !startsWithBlank cursor
        let (line, after) := cursor.takeWhile fun c => !isLineEnd c
        let reversed := line.reverse ++ read.breaks ++ read.reversed
        let (lastBreak, after) := after.takeBreak
        let (breaks, after) := takeEmptyLines indent after
        if after.column == indent && after.current != endMark then
          let joint :=
            if folded && lastBreak == ['\n'] && plainStart && !startsWithBlank after then
              if breaks.isEmpty then [' '] else []
            else lastBreak
          takeBlockLines folded indent fuel ⟨joint ++ reversed, lastBreak, breaks, after⟩
        else ⟨reversed, lastBreak, breaks, after⟩

/-- A block scalar from its mark on, for a collection with the given indentation. -/
def takeBlock (parentIndent : Int) (cursor : Cursor) : Except Fault (Token × Cursor) := do
  let folded := cursor.current == '>'
  let ((chomping, increment), after) ← takeBlockHeader cursor.next
  let least := (max (parentIndent + 1) 1).toNat
  let (indent, breaks, after) :=
    match increment with
    | some increment =>
        let indent := least + increment - 1
        (indent, takeEmptyLines indent after)
    | none =>
        let (breaks, widest, after) := takeLeadingBreaks (after.rest.length + 1) [] 0 after
        (max least widest, breaks, after)
  let read := takeBlockLines folded indent (after.rest.length + 1) ⟨[], [], breaks, after⟩
  let tail :=
    match chomping with
    | .strip => []
    | .clip => read.lastBreak
    | .keep => read.breaks ++ read.lastBreak
  return (.scalar (String.ofList (tail ++ read.reversed).reverse) false, read.cursor)

end SlashBot.Yaml

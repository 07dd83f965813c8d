/-!
# A place in a YAML document

A cursor holds the text that is still to be read and knows where that text
stands. The end of a document reads as the null character, which no document
holds, so that looking ahead never fails.
-/

namespace SlashBot.Yaml

/-- The character that is read at the end of a document. -/
def endMark : Char := Char.ofNat 0

/-- A character that ends a line. -/
def isBreak (c : Char) : Bool :=
  c == '\n' || c == '\r' || c.toNat == 0x85 || c.toNat == 0x2028 || c.toNat == 0x2029

/-- The end of a line or of the document. -/
def isLineEnd (c : Char) : Bool :=
  c == endMark || isBreak c

/-- A space, or the end of a line or of the document. -/
def isSpaceOrEnd (c : Char) : Bool :=
  c == ' ' || isLineEnd c

/-- A space or a tabulator, or the end of a line or of the document. -/
def isGap (c : Char) : Bool :=
  c == '\t' || isSpaceOrEnd c

/-- A place in a document. -/
structure Cursor where
  rest : List Char
  index : Nat
  line : Nat
  column : Nat

namespace Cursor

/-- The start of a document. -/
def start (text : List Char) : Cursor := ⟨text, 0, 0, 0⟩

/-- The character at a distance from the cursor. -/
def peek (cursor : Cursor) (distance : Nat) : Char :=
  cursor.rest.getD distance endMark

/-- The character at the cursor. -/
def current (cursor : Cursor) : Char :=
  cursor.peek 0

/-- The place behind the current character. A carriage return before a line feed
does not yet end its line, and a byte order mark takes no column. -/
def next (cursor : Cursor) : Cursor :=
  match cursor.rest with
  | [] => cursor
  | c :: rest =>
      if isBreak c && !(c == '\r' && rest.head? == some '\n') then
        ⟨rest, cursor.index + 1, cursor.line + 1, 0⟩
      else
        let width := if c.toNat == 0xfeff then 0 else 1
        ⟨rest, cursor.index + 1, cursor.line, cursor.column + width⟩

/-- The place behind the given number of characters. -/
def skip : (count : Nat) → (cursor : Cursor) → Cursor
  | 0, cursor => cursor
  | count + 1, cursor => skip count cursor.next

/-- The characters from the cursor on that satisfy the test, and the place
behind them. -/
def takeWhile (test : Char → Bool) (cursor : Cursor) : List Char × Cursor :=
  let run := cursor.rest.takeWhile test
  (run, cursor.skip run.length)

/-- The place behind the characters that satisfy the test. -/
def skipWhile (test : Char → Bool) (cursor : Cursor) : Cursor :=
  (cursor.takeWhile test).2

/-- The place behind the spaces. -/
def skipSpaces (cursor : Cursor) : Cursor :=
  cursor.skipWhile (· == ' ')

/-- Reads a line break, if one stands at the cursor. Most breaks are read as a
line feed; the separators of lines and paragraphs stay what they are. -/
def takeBreak (cursor : Cursor) : List Char × Cursor :=
  let c := cursor.current
  if c == '\r' && cursor.peek 1 == '\n' then (['\n'], cursor.skip 2)
  else if c == '\r' || c == '\n' || c.toNat == 0x85 then (['\n'], cursor.next)
  else if isBreak c then ([c], cursor.next)
  else ([], cursor)

/-- A mark of three hyphens or three points that separates documents, with a gap
behind it. -/
def atSeparator (cursor : Cursor) : Bool :=
  let mark := cursor.rest.take 3
  (mark == ['-', '-', '-'] || mark == ['.', '.', '.']) && isGap (cursor.peek 3)

/-- The place behind a comment, if one stands at the cursor. -/
def skipComment (cursor : Cursor) : Cursor :=
  if cursor.current == '#' then cursor.skipWhile fun c => !isLineEnd c else cursor

end Cursor

end SlashBot.Yaml

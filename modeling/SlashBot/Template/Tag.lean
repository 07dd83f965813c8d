import SlashBot.Fault
import SlashBot.Text.Blank

/-!
# Tags of a template

A template is a text with tags between delimiters. Finding them gives a list of
literal pieces and tags. A tag that controls sections and stands alone on its line
takes the line with it. Finding may break off at a tag that is not well formed;
what comes before that tag is still rendered first.
-/

namespace SlashBot.Template

open SlashBot.Text

/-- What a piece of a template asks for. -/
inductive Piece where
  | literal (text : List Char)
  | escaped (key : List Char)
  | verbatim (key : List Char)
  | enter (key : List Char)
  | enterUnless (key : List Char)
  | leave (key : List Char)
  | insert (name : List Char)
  | ignored
  deriving DecidableEq, Repr

/-- How far a template has been read: the number of pieces and of line breaks up
to here, where only breaks in front of tags count. -/
structure Mark where
  pieces : Nat
  breaks : Nat
  deriving DecidableEq, Repr

/-- A piece with its mark. -/
structure Located where
  piece : Piece
  mark : Mark

/-- The reason why no more pieces are found. -/
inductive Flaw where
  | emptyTag
  | unclosed
  | unclosedDelimiters
  | notOpened (key : List Char)
  | mismatched (key last : List Char)
  | neverClosed (key : List Char) (opened : Mark)
  deriving DecidableEq, Repr

/-- The end of the pieces. -/
inductive Ending where
  | complete
  | broken (flaw : Flaw) (breaks : Nat)

/-- The pieces of a template and their end. -/
structure Pieces where
  found : List Located
  ending : Ending

/-- The pieces with more of them in front. -/
def Pieces.after (first : List Located) (rest : Pieces) : Pieces :=
  ⟨first ++ rest.found, rest.ending⟩

/-- The fault of a flaw. Lines are counted from the piece at which the count was
last reset, and an opening tag before that has no line. -/
def Flaw.fault (flaw : Flaw) (breaks : Nat) (reset : Option Mark) : Fault :=
  let line := breaks - (reset.map (·.breaks)).getD 0 + 1
  match flaw with
  | emptyTag => .outOfRange
  | unclosed => .template (.unclosed line)
  | unclosedDelimiters => .template (.unclosedDelimiters line)
  | notOpened key => .template (.notOpened (String.ofList key) (line + 1))
  | mismatched key last =>
      .template (.mismatched (String.ofList key) (String.ofList last) (line + 1))
  | neverClosed key opened =>
      let openedLine :=
        match reset with
        | none => some (opened.breaks + 1)
        | some reset =>
            if opened.pieces ≤ reset.pieces then none else some (opened.breaks - reset.breaks + 1)
      .template (.neverClosed (String.ofList key) openedLine)

/-- The kind of a tag, by its first character. -/
inductive TagKind where
  | comment
  | piece (make : List Char → Piece)
  | braced
  | delimiters

/-- The kind of a tag with the given first character; `none` is a variable, whose
key starts with that character. -/
def TagKind.of? (c : Char) : Option TagKind :=
  if c == '!' then some comment
  else if c == '#' then some (piece .enter)
  else if c == '^' then some (piece .enterUnless)
  else if c == '/' then some (piece .leave)
  else if c == '>' then some (piece .insert)
  else if c == '&' then some (piece .verbatim)
  else if c == '=' then some delimiters
  else if c.toNat == 123 then some braced
  else none

/-- The marks between which tags stand. -/
structure Delimiters where
  left : List Char
  right : List Char
  deriving DecidableEq

/-- Two opening and two closing braces. -/
def Delimiters.braces : Delimiters :=
  ⟨[Char.ofNat 123, Char.ofNat 123], [Char.ofNat 125, Char.ofNat 125]⟩

/-- The delimiters that a tag sets: its first and its last word, where words are
separated by single spaces. -/
def Delimiters.ofWords (text : List Char) : Delimiters :=
  let words := splitWhere (· == ' ') text
  ⟨words.headD [], words.getLastD []⟩

/-- A tag as it is read: what it asks for, if anything, the delimiters after it,
and the text behind it. -/
structure Tag where
  piece : Option Piece
  delimiters : Delimiters
  rest : List Char

/-- Reads the tag behind a left delimiter. A third brace counts only where the
delimiters are braces and it is closed behind them. -/
def takeTag (delimiters : Delimiters) (text : List Char) : Except Flaw Tag :=
  match cutAt delimiters.right text with
  | none => .error .unclosed
  | some ([], _) => .error .emptyTag
  | some (c :: inner, rest) =>
      match TagKind.of? c with
      | none => .ok ⟨some (.escaped (trim (c :: inner))), delimiters, rest⟩
      | some .comment => .ok ⟨none, delimiters, rest⟩
      | some (.piece make) => .ok ⟨some (make (trim inner)), delimiters, rest⟩
      | some .braced =>
          if delimiters == .braces && (rest.head?.map Char.toNat) == some 125 then
            .ok ⟨some (.verbatim (trim inner)), delimiters, rest.drop 1⟩
          else .ok ⟨some .ignored, delimiters, rest⟩
      | some .delimiters =>
          if inner.getLast? == some '=' then
            .ok ⟨some .ignored, .ofWords (trim inner.dropLast), rest⟩
          else .error .unclosedDelimiters

/-- The tag prints a value, and so never stands alone on its line. -/
def Piece.printsValue : Piece → Bool
  | escaped _ | verbatim _ => true
  | _ => false

/-- The state between two tags: whether the line has been blank so far, the keys
of the open sections from the inside outwards, and where the last one was
opened. -/
structure Finding where
  delimiters : Delimiters
  blankSoFar : Bool
  openKeys : List (List Char)
  lastOpened : Mark
  mark : Mark

/-- The state at the start of a template. -/
def Finding.start : Finding :=
  ⟨.braces, true, [], ⟨0, 0⟩, ⟨0, 0⟩⟩

/-- The part of a text behind its last line break. -/
def lastLine (text : List Char) : List Char :=
  (text.reverse.takeWhile (· != '\n')).reverse

/-- The part of a text up to its first line break. -/
def firstPart (text : List Char) : List Char :=
  text.takeWhile (· != '\n')

/-- The text behind its first line break, or the whole text if it has none. -/
def dropFirstPart (text : List Char) : List Char :=
  match text.dropWhile (· != '\n') with
  | [] => text
  | _ :: rest => rest

/-- The open sections after a tag, which must close the one opened last if it
closes any. -/
def Finding.track (finding : Finding) (piece : Option Piece) : Except Flaw (List (List Char)) :=
  match piece with
  | some (.enter key) | some (.enterUnless key) => .ok (key :: finding.openKeys)
  | some (.leave key) =>
      match finding.openKeys with
      | [] => .error (.notOpened key)
      | last :: outer => if key == last then .ok outer else .error (.mismatched key last)
  | _ => .ok finding.openKeys

/-- The piece opens a section. -/
def Piece.opens : Piece → Bool
  | enter _ | enterUnless _ => true
  | _ => false

/-- A literal piece, where an empty one is left out. -/
def literalPieces (text : List Char) : List Piece :=
  if text.isEmpty then [] else [.literal text]

/-- Numbers pieces from a mark on. -/
def locate (mark : Mark) : (pieces : List Piece) → List Located
  | [] => []
  | piece :: rest =>
      let mark : Mark := ⟨mark.pieces + 1, mark.breaks⟩
      ⟨piece, mark⟩ :: locate mark rest

/-- The end of the pieces where the text ends. -/
def Finding.atEnd (finding : Finding) : Ending :=
  match finding.openKeys with
  | [] => .complete
  | key :: _ => .broken (.neverClosed key finding.lastOpened) finding.mark.breaks

/-- Finds the pieces of the text from a state on. -/
def Finding.run : (fuel : Nat) → (finding : Finding) → (text : List Char) → Pieces
  | 0, finding, _ => ⟨[], finding.atEnd⟩
  | fuel + 1, finding, text =>
      if text.isEmpty then ⟨[], finding.atEnd⟩
      else
        match cutAt finding.delimiters.left text with
        | none => ⟨locate finding.mark [.literal text], finding.atEnd⟩
        | some (literal, rest) =>
            let mark : Mark := ⟨finding.mark.pieces, finding.mark.breaks + literal.count '\n'⟩
            let finding := { finding with mark := mark }
            if rest.isEmpty then ⟨locate mark [.literal literal], finding.atEnd⟩
            else
              let checked := do
                let tag ← takeTag finding.delimiters rest
                return (tag, ← finding.track tag.piece)
              match checked with
              | .error flaw => ⟨[], .broken flaw mark.breaks⟩
              | .ok (tag, openKeys) =>
                  let standsAlone :=
                    (finding.blankSoFar || literal.contains '\n') && allBlank (lastLine literal) &&
                      !(tag.piece.any Piece.printsValue) && allBlank (firstPart tag.rest)
                  let indented :=
                    match tag.piece with
                    | some (.insert _) => true
                    | _ => false
                  let literal :=
                    if standsAlone && !indented then dropTailWhile (· == ' ') literal else literal
                  let located := locate mark (literalPieces literal ++ tag.piece.toList)
                  let mark : Mark := ⟨mark.pieces + located.length, mark.breaks⟩
                  let next : Finding :=
                    ⟨tag.delimiters, standsAlone, openKeys,
                      if tag.piece.any Piece.opens then mark else finding.lastOpened, mark⟩
                  let rest := if standsAlone then dropFirstPart tag.rest else tag.rest
                  Pieces.after located (next.run fuel rest)

/-- The pieces of a template. -/
def piecesOf (text : List Char) : Pieces :=
  Finding.start.run (text.length + 1) text

end SlashBot.Template

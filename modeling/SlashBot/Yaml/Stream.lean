import SlashBot.Yaml.Block
import SlashBot.Yaml.Plain
import SlashBot.Yaml.Quoted

/-!
# The tokens of a document

Tokens are found from left to right. A simple key is recognised only at its
colon, so each place where one may start is remembered, and the mark of the key is
put in front of it afterwards. A key that is remembered fits on its line and
within 1024 characters.

A document that breaks off gives the tokens that are settled before the break:
those up to the first that might still turn out to be a key.
-/

namespace SlashBot.Yaml

/-- A place where a simple key may start. A required one stands at the
indentation of its block, where nothing but a key can start. -/
structure PossibleKey where
  flowLevel : Nat
  position : Nat
  required : Bool
  index : Nat
  line : Nat
  column : Nat

namespace PossibleKey

/-- The key has ended: it is on an earlier line or too far back. -/
def isStale (cursor : Cursor) (key : PossibleKey) : Bool :=
  key.line != cursor.line || cursor.index > key.index + 1024

end PossibleKey

/-- The state between two tokens. Tokens are kept in reverse, and the open blocks
as their indentations from the inside outwards. -/
structure Scan where
  cursor : Cursor
  reversed : List Token
  count : Nat
  indent : Int
  outer : List Int
  flowLevel : Nat
  keyAllowed : Bool
  keys : List PossibleKey

namespace Scan

/-- The state at the start of a document. -/
def start (text : List Char) : Scan :=
  { cursor := Cursor.start text, reversed := [], count := 0, indent := -1, outer := [],
    flowLevel := 0, keyAllowed := true, keys := [] }

/-- The scan is inside brackets or braces, where indentation means nothing. -/
def inFlow (scan : Scan) : Bool := scan.flowLevel != 0

/-- Adds a token. -/
def emit (token : Token) (scan : Scan) : Scan :=
  { scan with reversed := token :: scan.reversed, count := scan.count + 1 }

/-- Adds a token in front of the one at a position. -/
def insertAt (position : Nat) (token : Token) (scan : Scan) : Scan :=
  let (later, earlier) := scan.reversed.splitAt (scan.count - position)
  { scan with reversed := later ++ token :: earlier, count := scan.count + 1 }

/-- Opens a block at a column that is indented further than the present one. -/
def openBlock (column : Nat) (scan : Scan) : Option Scan :=
  if scan.indent < column then
    some { scan with indent := column, outer := scan.indent :: scan.outer }
  else none

/-- Ends the blocks that are indented further than the column. -/
def closeBlocks (column : Int) (scan : Scan) : Scan :=
  if scan.inFlow then scan else close scan.outer scan
where
  /-- Ends blocks as long as the indentation is too wide. -/
  close : (outer : List Int) → (scan : Scan) → Scan
    | [], scan => scan
    | indent :: outer, scan =>
        if scan.indent > column then
          close outer { scan.emit .blockEnd with indent := indent, outer := outer }
        else scan

/-- Forgets the keys that have ended. A required one must not end. -/
def dropStaleKeys (scan : Scan) : Except Fault Scan :=
  if scan.keys.any fun key => key.isStale scan.cursor && key.required then
    .error .malformedConfig
  else .ok { scan with keys := scan.keys.filter fun key => !key.isStale scan.cursor }

/-- Forgets the possible key of the present collection, which must not be
required. -/
def dropKey (scan : Scan) : Except Fault Scan :=
  if scan.keys.any fun key => key.flowLevel == scan.flowLevel && key.required then
    .error .malformedConfig
  else .ok { scan with keys := scan.keys.filter fun key => key.flowLevel != scan.flowLevel }

/-- Remembers that a key may start at the cursor, where one is allowed. -/
def saveKey (scan : Scan) : Except Fault Scan := do
  if scan.keyAllowed then
    let cursor := scan.cursor
    let required := !scan.inFlow && scan.indent == cursor.column
    let key : PossibleKey :=
      ⟨scan.flowLevel, scan.count, required, cursor.index, cursor.line, cursor.column⟩
    let scan ← scan.dropKey
    return { scan with keys := key :: scan.keys }
  else return scan

/-- Moves to the place where the next token starts. After a line break outside
brackets a key may start. -/
def skipGap : (fuel : Nat) → (scan : Scan) → Scan
  | 0, scan => scan
  | fuel + 1, scan =>
      let cursor := scan.cursor.skipSpaces.skipComment
      if isBreak cursor.current then
        skipGap fuel
          { scan with
            cursor := cursor.takeBreak.2, keyAllowed := scan.keyAllowed || !scan.inFlow }
      else { scan with cursor := cursor }

/-- Adds a token of the given width that separates documents or directives. -/
def separator (read : Except Fault (Token × Cursor)) (scan : Scan) : Except Fault Scan := do
  let scan ← (scan.closeBlocks (-1)).dropKey
  let (token, cursor) ← read
  return { scan.emit token with cursor := cursor, keyAllowed := false }

/-- Adds a token that may start a simple key. -/
def content (read : Except Fault (Token × Cursor)) (scan : Scan) : Except Fault Scan := do
  let scan ← scan.saveKey
  let (token, cursor) ← read
  return { scan.emit token with cursor := cursor, keyAllowed := false }

/-- Adds the opening bracket of a collection. -/
def openFlow (token : Token) (scan : Scan) : Except Fault Scan := do
  let scan ← scan.saveKey
  return { scan.emit token with
    cursor := scan.cursor.next, flowLevel := scan.flowLevel + 1, keyAllowed := true }

/-- Adds the closing bracket of a collection. -/
def closeFlow (token : Token) (scan : Scan) : Except Fault Scan := do
  let scan ← scan.dropKey
  return { scan.emit token with
    cursor := scan.cursor.next, flowLevel := scan.flowLevel - 1, keyAllowed := false }

/-- Adds the comma between two items. -/
def flowEntry (scan : Scan) : Except Fault Scan := do
  let scan ← scan.dropKey
  return { scan.emit .flowEntry with cursor := scan.cursor.next, keyAllowed := true }

/-- Opens a block of the given kind at the cursor, where a block may start. -/
def startBlock (opening : Token) (scan : Scan) : Except Fault Scan :=
  if scan.inFlow then .ok scan
  else if !scan.keyAllowed then .error .malformedConfig
  else
    match scan.openBlock scan.cursor.column with
    | some scan => .ok (scan.emit opening)
    | none => .ok scan

/-- Adds the hyphen of an item. -/
def blockEntry (scan : Scan) : Except Fault Scan := do
  let scan ← scan.startBlock .blockSequenceStart
  let scan ← scan.dropKey
  return { scan.emit .blockEntry with cursor := scan.cursor.next, keyAllowed := true }

/-- Adds the question mark of a key. -/
def explicitKey (scan : Scan) : Except Fault Scan := do
  let scan ← scan.startBlock .blockMappingStart
  let scan ← scan.dropKey
  return { scan.emit .key with cursor := scan.cursor.next, keyAllowed := !scan.inFlow }

/-- Adds the colon of a value. If a key was possible in the present collection, it
is one. -/
def value (scan : Scan) : Except Fault Scan := do
  let scan ←
    match scan.keys.find? fun key => key.flowLevel == scan.flowLevel with
    | some key =>
        let scan :=
          { scan with keys := scan.keys.filter fun key => key.flowLevel != scan.flowLevel }
        let scan := scan.insertAt key.position .key
        let scan :=
          if scan.inFlow then scan
          else
            match scan.openBlock key.column with
            | some scan => scan.insertAt key.position .blockMappingStart
            | none => scan
        pure { scan with keyAllowed := false }
    | none => do
        let scan ← scan.startBlock .blockMappingStart
        let scan := { scan with keyAllowed := !scan.inFlow }
        scan.dropKey
  return { scan.emit .value with cursor := scan.cursor.next }

/-- Adds a block scalar. -/
def blockScalar (scan : Scan) : Except Fault Scan := do
  let scan ← scan.dropKey
  let (token, cursor) ← takeBlock scan.indent scan.cursor
  return { scan.emit token with cursor := cursor, keyAllowed := true }

/-- Adds a plain scalar. -/
def plainScalar (scan : Scan) : Except Fault Scan := do
  let scan ← scan.saveKey
  let read := takePlain scan.inFlow scan.indent scan.cursor
  let token := Token.scalar (String.ofList read.reversed.reverse) true
  return { scan.emit token with cursor := read.cursor, keyAllowed := read.lineEnded }

/-- Ends the document. -/
def finish (scan : Scan) : Except Fault Scan := do
  let scan ← (scan.closeBlocks (-1)).dropKey
  return { scan.emit .streamEnd with keyAllowed := false, keys := [] }

/-- Adds the token that starts with the given character. -/
def token (c : Char) (scan : Scan) : Except Fault Scan :=
  let cursor := scan.cursor
  let gapFollows := isGap (cursor.peek 1)
  if c == '%' && cursor.column == 0 then scan.separator (takeDirective cursor)
  else if cursor.column == 0 && cursor.atSeparator then
    scan.separator (.ok (if c == '-' then .documentStart else .documentEnd, cursor.skip 3))
  else if c == '[' then scan.openFlow .flowSequenceStart
  else if c.toNat == 123 then scan.openFlow .flowMappingStart
  else if c == ']' then scan.closeFlow .flowSequenceEnd
  else if c.toNat == 125 then scan.closeFlow .flowMappingEnd
  else if c == ',' then scan.flowEntry
  else if c == '-' && gapFollows then scan.blockEntry
  else if c == '?' && (scan.inFlow || gapFollows) then scan.explicitKey
  else if c == ':' && (scan.inFlow || gapFollows) then scan.value
  else if c == '*' then
    scan.content ((takeName cursor).map fun (name, after) => (.alias name, after))
  else if c == '&' then
    scan.content ((takeName cursor).map fun (name, after) => (.anchor name, after))
  else if c == '!' then scan.content (takeTag cursor)
  else if (c == '|' || c == '>') && !scan.inFlow then scan.blockScalar
  else if c == '\'' || c == '"' then scan.content (takeQuoted cursor)
  else if startsPlain scan.inFlow cursor then scan.plainScalar
  else .error .malformedConfig

/-- Finds the next token, and tells whether the document has ended. -/
def step (scan : Scan) : Except Fault (Scan × Bool) := do
  let scan := scan.skipGap (scan.cursor.rest.length + 1)
  let scan ← scan.dropStaleKeys
  let scan := scan.closeBlocks scan.cursor.column
  let c := scan.cursor.current
  if c == endMark then return (← scan.finish, true)
  else return (← scan.token c, false)

/-- The number of tokens that are settled: those before the first possible key. -/
def settled (scan : Scan) : Nat :=
  let keys := scan.keys.filter fun key => !key.isStale scan.cursor
  keys.foldl (fun least key => min least key.position) scan.count

end Scan

/-- The tokens of a document, and the reason why there are no more. -/
structure TokenStream where
  tokens : List Token
  ending : Fault

/-- Finds all tokens from a state on. -/
def Scan.run : (fuel : Nat) → (scan : Scan) → TokenStream
  | 0, scan => ⟨scan.reversed.reverse, .malformedConfig⟩
  | fuel + 1, scan =>
      match scan.step with
      | .error fault => ⟨scan.reversed.reverse.take scan.settled, fault⟩
      | .ok (scan, true) => ⟨scan.reversed.reverse, .malformedConfig⟩
      | .ok (scan, false) => scan.run fuel

/-- A character that a document may hold. -/
def isDocumentChar (c : Char) : Bool :=
  let code := c.toNat
  code == 9 || code == 10 || code == 13 || (32 ≤ code && code ≤ 126) || code == 0x85 ||
    (0xa0 ≤ code && code != 0xfffe && code != 0xffff)

/-- The tokens of a document. A byte order mark at its start is passed over. -/
def tokensOf (text : List Char) : TokenStream :=
  if text.all isDocumentChar then
    let start := Scan.start text
    let cursor := start.cursor
    let start :=
      if cursor.current.toNat == 0xfeff then { start with cursor := cursor.next } else start
    start.run (text.length + 2)
  else ⟨[], .malformedConfig⟩

end SlashBot.Yaml

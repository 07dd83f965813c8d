import SlashBot.Yaml.Implicit
import SlashBot.Yaml.Stream

/-!
# The tree of a document

Tokens form a tree of nodes. An anchor gives its node a name for the rest of the
document, and an alias stands for the node of that name. A document holds one
tree; nothing may follow it.
-/

namespace SlashBot.Yaml

/-- A node of the tree, with the tag that it was given or that it has by its
spelling. -/
inductive Node where
  | scalar (tag : Tag) (text : String)
  | sequence (tag : Tag) (items : List Node)
  | mapping (tag : Tag) (pairs : List (Node × Node))

instance : Inhabited Node := ⟨.scalar .null ""⟩

/-- The node where none is written. -/
def Node.absent : Node := .scalar .null ""

/-- The state of building a tree: the tokens to come and the reason why there are
no more, the meanings of the handles, the names given so far, and the nodes that
are complete. -/
structure Building where
  stream : TokenStream
  handles : List (String × String)
  names : List String
  anchors : List (String × Node)

/-- A step of building a tree. -/
abbrev Builder := StateT Building (Except Fault)

namespace Builder

/-- The tokens that are still to come. -/
def remaining : Builder (List Token) :=
  return (← get).stream.tokens

/-- The next token, which stays. -/
def peek : Builder Token := do
  let state ← get
  match state.stream.tokens with
  | token :: _ => return token
  | [] => throw state.stream.ending

/-- Passes over the next token. -/
def skip : Builder Unit :=
  modify fun state => { state with stream.tokens := state.stream.tokens.tail }

/-- The document is not well formed. -/
def refuse {α : Type} : Builder α :=
  throw .malformedConfig

/-- Passes over the next token, which must be the given one. -/
def expect (token : Token) : Builder Unit := do
  if (← peek) == token then skip else refuse

/-- The properties in front of a node: an anchor and a tag, in either order. -/
def properties : Builder (Option String × Option (Option String × String)) := do
  match ← peek with
  | .anchor name =>
      skip
      match ← peek with
      | .tag handle suffix => skip; return (some name, some (handle, suffix))
      | _ => return (some name, none)
  | .tag handle suffix =>
      skip
      match ← peek with
      | .anchor name => skip; return (some name, some (handle, suffix))
      | _ => return (none, some (handle, suffix))
  | _ => return (none, none)

/-- The full name of a tag, whose handle must have a meaning. -/
def fullTag : (tag : Option String × String) → Builder String
  | (none, suffix) => return suffix
  | (some handle, suffix) => do
      match (← get).handles.lookup handle with
      | some start => return start ++ suffix
      | none => refuse

/-- Gives a name to the node that begins here. A name is given only once. -/
def claimName (anchor : Option String) : Builder Unit := do
  match anchor with
  | none => return
  | some name =>
      if (← get).names.contains name then refuse
      else modify fun state => { state with names := name :: state.names }

/-- Makes a complete node known under its name. -/
def keep (anchor : Option String) (node : Node) : Builder Node := do
  match anchor with
  | none => return node
  | some name =>
      modify fun state => { state with anchors := (name, node) :: state.anchors }
      return node

/-- The node that an alias stands for. -/
def aliased (name : String) : Builder Node := do
  match (← get).anchors.lookup name with
  | some node => return node
  | none => refuse

end Builder

/-- The tag of a collection, which is the usual one if none is written. -/
def collectionTag (usual : Tag) (tag : Option String) : Tag :=
  match tag with
  | none | some "!" => usual
  | some name => .ofName name

/-- The tag of a scalar. A lone exclamation mark asks for the tag by spelling. -/
def scalarTag (plain : Bool) (text : String) (tag : Option String) : Tag :=
  match tag with
  | none => if plain then .ofPlain text else .str
  | some "!" => .ofPlain text
  | some name => .ofName name

/-- The collections that a node may be, by where it stands. -/
inductive Place where
  | block
  | blockOrBareItems
  | flow
  deriving DecidableEq

open Builder

mutual

/-- The node at the front of the tokens. -/
def buildNode (place : Place) : (fuel : Nat) → Builder Node
  | 0 => refuse
  | fuel + 1 => do
      match ← peek with
      | .alias name => skip; aliased name
      | _ =>
          let (anchor, properTag) ← properties
          let tag ← properTag.mapM fullTag
          match ← peek with
          | .scalar text plain =>
              skip
              claimName anchor
              keep anchor (.scalar (scalarTag plain text tag) text)
          | .flowSequenceStart =>
              skip
              claimName anchor
              keep anchor (.sequence (collectionTag .seq tag) (← buildFlowItems true [] fuel))
          | .flowMappingStart =>
              skip
              claimName anchor
              keep anchor (.mapping (collectionTag .map tag) (← buildFlowPairs true [] fuel))
          | .blockSequenceStart =>
              if place == .flow then buildEmpty anchor tag
              else
                skip
                claimName anchor
                keep anchor (.sequence (collectionTag .seq tag) (← buildItems [] fuel))
          | .blockMappingStart =>
              if place == .flow then buildEmpty anchor tag
              else
                skip
                claimName anchor
                keep anchor (.mapping (collectionTag .map tag) (← buildPairs [] fuel))
          | .blockEntry =>
              if place == .blockOrBareItems then
                claimName anchor
                keep anchor (.sequence (collectionTag .seq tag) (← buildBareItems [] fuel))
              else buildEmpty anchor tag
          | _ => buildEmpty anchor tag

/-- A node without content, which needs a property. -/
def buildEmpty (anchor tag : Option String) : Builder Node := do
  if anchor.isNone && tag.isNone then refuse
  else
    claimName anchor
    keep anchor (.scalar (scalarTag true "" tag) "")

/-- A node that may be left out before one of the given tokens. -/
def buildOptional (place : Place) (closing : List Token) : (fuel : Nat) → Builder Node
  | 0 => refuse
  | fuel + 1 => do
      if closing.contains (← peek) then return .absent else buildNode place fuel

/-- The items of a block sequence, after those in reverse. -/
def buildItems (reversed : List Node) : (fuel : Nat) → Builder (List Node)
  | 0 => refuse
  | fuel + 1 => do
      if (← peek) == .blockEntry then
        skip
        let item ← buildOptional .block [.blockEntry, .blockEnd] fuel
        buildItems (item :: reversed) fuel
      else
        expect .blockEnd
        return reversed.reverse

/-- The items of a sequence that is not indented further than its key. -/
def buildBareItems (reversed : List Node) : (fuel : Nat) → Builder (List Node)
  | 0 => refuse
  | fuel + 1 => do
      if (← peek) == .blockEntry then
        skip
        let item ← buildOptional .block [.blockEntry, .key, .value, .blockEnd] fuel
        buildBareItems (item :: reversed) fuel
      else return reversed.reverse

/-- The pairs of a block mapping, after those in reverse. -/
def buildPairs (reversed : List (Node × Node)) : (fuel : Nat) → Builder (List (Node × Node))
  | 0 => refuse
  | fuel + 1 => do
      match ← peek with
      | .key =>
          skip
          let key ← buildOptional .blockOrBareItems [.key, .value, .blockEnd] fuel
          let value ← buildPairValue fuel
          buildPairs ((key, value) :: reversed) fuel
      | _ =>
          expect .blockEnd
          return reversed.reverse

/-- The value of a pair in a block mapping. -/
def buildPairValue : (fuel : Nat) → Builder Node
  | 0 => refuse
  | fuel + 1 => do
      if (← peek) == .value then
        skip
        buildOptional .blockOrBareItems [.key, .value, .blockEnd] fuel
      else return .absent

/-- The items of a sequence in brackets, after those in reverse. -/
def buildFlowItems (first : Bool) (reversed : List Node) : (fuel : Nat) → Builder (List Node)
  | 0 => refuse
  | fuel + 1 => do
      if (← peek) == .flowSequenceEnd then skip; return reversed.reverse
      if !first then expect .flowEntry
      match ← peek with
      | .key =>
          skip
          let key ← buildOptional .flow [.value, .flowEntry, .flowSequenceEnd] fuel
          let value ← buildFlowValue [.flowEntry, .flowSequenceEnd] fuel
          buildFlowItems false (.mapping .map [(key, value)] :: reversed) fuel
      | .flowSequenceEnd => skip; return reversed.reverse
      | _ =>
          let item ← buildNode .flow fuel
          buildFlowItems false (item :: reversed) fuel

/-- The pairs of a mapping in braces, after those in reverse. -/
def buildFlowPairs (first : Bool) (reversed : List (Node × Node)) :
    (fuel : Nat) → Builder (List (Node × Node))
  | 0 => refuse
  | fuel + 1 => do
      if (← peek) == .flowMappingEnd then skip; return reversed.reverse
      if !first then expect .flowEntry
      match ← peek with
      | .key =>
          skip
          let key ← buildOptional .flow [.value, .flowEntry, .flowMappingEnd] fuel
          let value ← buildFlowValue [.flowEntry, .flowMappingEnd] fuel
          buildFlowPairs false ((key, value) :: reversed) fuel
      | .flowMappingEnd => skip; return reversed.reverse
      | _ =>
          let key ← buildNode .flow fuel
          buildFlowPairs false ((key, .absent) :: reversed) fuel

/-- The value of a pair inside brackets or braces. -/
def buildFlowValue (closing : List Token) : (fuel : Nat) → Builder Node
  | 0 => refuse
  | fuel + 1 => do
      if (← peek) == .value then
        skip
        buildOptional .flow closing fuel
      else return .absent

end

/-- The handles that every document knows. -/
def usualHandles : List (String × String) :=
  [("!", "!"), ("!!", Tag.start)]

/-- The directives of a document, each given once, and the version a known one. -/
def buildDirectives (versionSeen : Bool) (handles : List (String × String)) :
    (fuel : Nat) → Builder (List (String × String))
  | 0 => refuse
  | fuel + 1 => do
      match ← peek with
      | .directive directive =>
          skip
          match directive with
          | .version major =>
              if versionSeen || major != 1 then refuse
              else buildDirectives true handles fuel
          | .handle name start =>
              if (handles.lookup name).isSome then refuse
              else buildDirectives versionSeen ((name, start) :: handles) fuel
          | .other => buildDirectives versionSeen handles fuel
      | _ => return handles ++ usualHandles

/-- Passes over the marks that end a document. -/
def skipDocumentEnds : (fuel : Nat) → Builder Unit
  | 0 => refuse
  | fuel + 1 => do
      if (← peek) == .documentEnd then
        skip
        skipDocumentEnds fuel

/-- The tree of a document, if it has one. -/
def buildDocument : Builder (Option Node) := do
  let fuel := 4 * (← remaining).length + 8
  let content (closing : Token → Bool) : Builder Node := do
    if closing (← peek) then return .absent else buildNode .block fuel
  let node ←
    match ← peek with
    | .streamEnd => return none
    | .directive _ | .documentStart =>
        let handles ← buildDirectives false [] fuel
        modify fun state => { state with handles := handles }
        expect .documentStart
        content fun token =>
          match token with
          | .directive _ | .documentStart | .documentEnd | .streamEnd => true
          | _ => false
    | _ => buildNode .block fuel
  skipDocumentEnds fuel
  if (← peek) == .streamEnd then return some node
  else
    let _ ← buildDirectives false [] fuel
    expect .documentStart
    refuse

/-- The tree of a document, if it has one. -/
def Node.ofText (text : List Char) : Except Fault (Option Node) := do
  let stream := tokensOf text
  let (node, _) ← buildDocument.run ⟨stream, usualHandles, [], []⟩
  return node

end SlashBot.Yaml

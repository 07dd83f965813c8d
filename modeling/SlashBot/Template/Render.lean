import SlashBot.Template.Scope
import SlashBot.Template.Tag

/-!
# Rendering a template

The pieces are rendered from left to right with a stack of scopes. A section
enters a scope, and one over a list is rendered once for each item; while the
innermost scope is absent, everything is passed over. No text of a value is ever
read as a template.
-/

namespace SlashBot.Template

open SlashBot.Text

/-- A character as markup shows it. -/
def escapeChar (c : Char) : List Char :=
  if c == '&' then "&amp;".toList
  else if c == '"' then "&quot;".toList
  else if c == '<' then "&lt;".toList
  else if c == '>' then "&gt;".toList
  else [c]

/-- The text with the characters replaced that mean something in markup. -/
def escapeMarkup (text : List Char) : List Char :=
  text.flatMap escapeChar

/-- The text of a variable. A bare true value that was put there by a section shows
the scope behind it. -/
def printedText (key : List Char) (scopes : List Scope) : Except Fault (List Char) := do
  let found ← Scope.lookup key scopes
  match key, found, scopes with
  | ['.'], .value (.bool true), _ :: outer :: _ => return outer.display.toList
  | _, found, _ => return found.display.toList

/-- The pieces up to the one that closes a section, the closing one, and the rest.
Sections of the same key inside are closed first. -/
def cutSection? (key : List Char) (depth : Nat) :
    (pieces : List Located) → Option (List Located × Located × List Located)
  | [] => none
  | located :: rest =>
      if located.piece == .leave key && depth == 0 then some ([], located, rest)
      else
        let depth :=
          if located.piece == .enter key then depth + 1
          else if located.piece == .leave key then depth - 1
          else depth
        (cutSection? key depth rest).map fun (inside, closing, rest) =>
          (located :: inside, closing, rest)

/-- What rendering carries along: the scopes, and the mark at which the count of
lines was last reset. Inside a repeated section the template has been read up to
the end of the section. -/
structure Place where
  scopes : List Scope
  reset : Option Mark
  readUpTo : Option Mark

/-- A rendered text and the mark of the last reset. -/
abbrev Rendered := List Char × Option Mark

/-- Puts a text in front of a rendered one. -/
def prependTo (text : List Char) (rendered : Except Fault Rendered) : Except Fault Rendered :=
  rendered.map fun (rest, reset) => (text ++ rest, reset)

/-- Renders pieces in a place. -/
def renderPieces : (fuel : Nat) → (place : Place) → (pieces : Pieces) → Except Fault Rendered
  | 0, place, _ => .ok ([], place.reset)
  | _ + 1, place, ⟨[], ending⟩ =>
      match ending with
      | .complete => .ok ([], place.reset)
      | .broken flaw breaks => .error (flaw.fault breaks place.reset)
  | fuel + 1, place, ⟨located :: rest, ending⟩ =>
      match place.scopes with
      | [] => .error .outOfRange
      | scope :: outer =>
          let continued (scopes : List Scope) : Except Fault Rendered :=
            renderPieces fuel { place with scopes := scopes } ⟨rest, ending⟩
          let absent := !scope.truthy && !outer.isEmpty
          match located.piece with
          | .leave _ => continued outer
          | .enter key =>
              if absent then continued (.value (.bool false) :: place.scopes)
              else
                match Scope.lookup key place.scopes with
                | .error fault => .error fault
                | .ok found =>
                    match found.items? with
                    | none => continued (found :: place.scopes)
                    | some items =>
                        match cutSection? key 0 rest, ending with
                        | none, .broken flaw breaks => .error (flaw.fault breaks place.reset)
                        | cut, _ =>
                            let (inside, closing, after) :=
                              match cut with
                              | some (inside, closing, after) => (inside, closing.mark, after)
                              | none => (rest, located.mark, [])
                            let upTo := place.readUpTo.getD closing
                            let repeated : Except Fault Rendered :=
                              items.foldlM
                                (fun (text, reset) item => do
                                  let (more, reset) ←
                                    renderPieces fuel
                                      ⟨item :: place.scopes, reset, some upTo⟩ ⟨inside, .complete⟩
                                  return (text ++ more, reset))
                                ([], place.reset)
                            match repeated with
                            | .error fault => .error fault
                            | .ok (text, reset) =>
                                prependTo text
                                  (renderPieces fuel { place with reset := reset } ⟨after, ending⟩)
          | .enterUnless key =>
              if absent then continued (.value (.bool false) :: place.scopes)
              else
                match Scope.lookup key place.scopes with
                | .error fault => .error fault
                | .ok found => continued (.value (.bool !found.truthy) :: place.scopes)
          | piece =>
              if absent then continued place.scopes
              else
                match piece with
                | .literal text => prependTo text (continued place.scopes)
                | .escaped key =>
                    match printedText key place.scopes with
                    | .error fault => .error fault
                    | .ok text => prependTo (escapeMarkup text) (continued place.scopes)
                | .verbatim key =>
                    match Scope.lookup key place.scopes with
                    | .error fault => .error fault
                    | .ok found => prependTo found.display.toList (continued place.scopes)
                | .insert name =>
                    if name.any fun c => c.toNat == 0 then .error .badValue
                    else
                      renderPieces fuel
                        { place with reset := some (place.readUpTo.getD located.mark) }
                        ⟨rest, ending⟩
                | _ => continued place.scopes

/-- The text of a template in a context. -/
def render (template : String) (context : Context) : Except Fault String :=
  let pieces := piecesOf template.toList
  (renderPieces (pieces.found.length + 1) ⟨[.context context], none, none⟩ pieces).map
    fun (text, _) => String.ofList text

end SlashBot.Template

import SlashBot.Template.Render

/-!
# Specifiers

Labels and assignees are changed by specifiers: templates whose words each add a
name or, behind a hyphen, remove one. A star stands for the removal of everything
that is there. Names of people may have an at sign in front.
-/

namespace SlashBot

open SlashBot.Template
open SlashBot.Text

/-- What a word of a specifier asks for. -/
inductive Change where
  | add (name : List Char)
  | remove (name : List Char)
  deriving DecidableEq, Repr

/-- The names to add and the names to remove, in the order of their words. -/
structure Changes where
  add : List String
  remove : List String
  deriving DecidableEq, Repr

namespace Change

/-- A name without an at sign in front. -/
def dropAt : (name : List Char) → List Char
  | '@' :: rest => rest
  | name => name

/-- What a word asks for. A word that leaves no name asks for nothing. -/
def ofWord? (people : Bool) (word : List Char) : Option Change :=
  let bare (name : List Char) : List Char := if people then dropAt name else name
  match word with
  | ['*'] => some (remove word)
  | '-' :: rest => if (bare rest).isEmpty then none else some (remove (bare rest))
  | word => if (bare word).isEmpty then none else some (add (bare word))

/-- The name that a change adds. -/
def added? : Change → Option String
  | add name => some (String.ofList name)
  | remove _ => none

/-- The name that a change removes. -/
def removed? : Change → Option String
  | add _ => none
  | remove name => some (String.ofList name)

end Change

/-- The words of the rendered specifiers, in order. -/
def specifierWords (specifiers : List String) (context : Context) :
    Except Fault (List (List Char)) := do
  let rendered ← specifiers.mapM fun specifier => render specifier context
  return rendered.flatMap fun text => words text.toList

namespace Changes

/-- The changes that words ask for. -/
def ofWords (people : Bool) (words : List (List Char)) : Changes :=
  let changes := words.filterMap (Change.ofWord? people)
  ⟨changes.filterMap Change.added?, changes.filterMap Change.removed?⟩

/-- The changes that specifiers ask for. -/
def ofSpecifiers (specifiers : List String) (context : Context) (people : Bool) :
    Except Fault Changes := do
  return ofWords people (← specifierWords specifiers context)

end Changes

/-- What is removed: everything that is there if a star asks for it, and the given
names otherwise. -/
def resolveRemovals (remove : List String) (current : List Value) : List Value :=
  if remove.contains "*" then current else remove.map .str

end SlashBot

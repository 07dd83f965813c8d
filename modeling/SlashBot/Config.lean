import SlashBot.Yaml.Document

/-!
# Command configuration

The configuration is a YAML document whose sections name commands. A command is
looked for first in the section of its context and then at the top level; the
first of the two that has it wins, and they are never merged.
-/

namespace SlashBot.Config

/-- The contexts that have a section of their own. -/
def contexts : List String := ["issues", "pulls"]

/-- The configuration in a document. A document that is not a map configures
nothing. -/
def ofText (content : String) : Except Fault Value := do
  match ← Yaml.valueOf content with
  | .map entries => return .map entries
  | _ => return .emptyMap

/-- The entry of a command in the section of a context, null if the section is no
map or does not have it. -/
def sectionEntry (entries : List (Value × Value)) (context command : String) : Value :=
  match Value.field entries context with
  | .map commands => Value.field commands command
  | _ => .null

/-- The entry of a command at the top level. A section is never a command there. -/
def flatEntry (entries : List (Value × Value)) (command : String) : Value :=
  if contexts.contains command then .emptyMap
  else (Value.field entries command).orElse .emptyMap

/-- The actions configured for a command in a context. -/
def actionsFor (config : Value) (context command : String) : Except Fault Value :=
  match config with
  | .map entries =>
      let own := sectionEntry entries context command
      .ok (if own.isNull then flatEntry entries command else own)
  | _ => .error .noSuchMember

end SlashBot.Config

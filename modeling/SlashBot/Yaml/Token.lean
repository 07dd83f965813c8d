/-!
# Tokens of a YAML document

A document is a sequence of tokens. Some stand for characters of the text, others
for the changes of indentation by which collections begin and end.
-/

namespace SlashBot.Yaml

/-- A line that speaks about the document. -/
inductive Directive where
  | version (major : Int)
  | handle (name start : String)
  | other
  deriving DecidableEq, Repr

/-- A token. -/
inductive Token where
  | directive (directive : Directive)
  | documentStart
  | documentEnd
  | streamEnd
  | blockSequenceStart
  | blockMappingStart
  | blockEnd
  | flowSequenceStart
  | flowSequenceEnd
  | flowMappingStart
  | flowMappingEnd
  | flowEntry
  | blockEntry
  | key
  | value
  | alias (name : String)
  | anchor (name : String)
  | tag (handle : Option String) (suffix : String)
  | scalar (text : String) (plain : Bool)
  deriving DecidableEq, Repr

end SlashBot.Yaml

/-!
# Effects

What applying an action set can do to an issue or pull request. Each effect has a
name, under which it is reported once it has been applied.
-/

namespace SlashBot

/-- Something that was done to an issue or a pull request. -/
inductive Effect where
  | pin
  | unpin
  | comment
  | reaction (name : String)
  | reopen
  | close
  | lock
  | unlock
  | addLabels
  | removeLabels
  | removeAssignees
  | addAssignees
  | dispatch
  deriving DecidableEq, Repr

namespace Effect

/-- The name under which an effect is reported. -/
def name : Effect → String
  | pin => "pin"
  | unpin => "unpin"
  | comment => "comment"
  | reaction name => "reaction:" ++ name
  | reopen => "open"
  | close => "close"
  | lock => "lock"
  | unlock => "unlock"
  | addLabels => "labels:add"
  | removeLabels => "labels:remove"
  | removeAssignees => "assignees:remove"
  | addAssignees => "assignees:add"
  | dispatch => "dispatch"

/-- The names of effects in one text. -/
def names (effects : List Effect) : String :=
  ", ".intercalate (effects.map name)

end Effect

end SlashBot

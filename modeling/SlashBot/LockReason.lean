import SlashBot.Fault
import SlashBot.Text.Blank
import SlashBot.Text.Case

/-!
# Lock reasons

A conversation is locked for one of four reasons. A configuration may spell them
in any case and with blanks around them, and one of them also with a hyphen.
-/

namespace SlashBot

open SlashBot.Text

/-- A reason for locking a conversation. -/
inductive LockReason where
  | offTopic
  | tooHeated
  | resolved
  | spam
  deriving DecidableEq, Repr

namespace LockReason

/-- The reason as the service knows it. -/
def text : LockReason → String
  | offTopic => "off-topic"
  | tooHeated => "too heated"
  | resolved => "resolved"
  | spam => "spam"

/-- The reason with a spelling in lower case. -/
def ofSpelling? (spelling : String) : Option LockReason :=
  match spelling with
  | "off-topic" => some offTopic
  | "too-heated" | "too heated" => some tooHeated
  | "resolved" => some resolved
  | "spam" => some spam
  | _ => none

/-- The reason that a configured value names, none if the value is null. -/
def ofValue (value : Value) : Except Fault (Option LockReason) :=
  if value.isNull then .ok none
  else do
    match ofSpelling? (String.ofList (lower (trim (← value.shown).toList))) with
    | some reason => .ok (some reason)
    | none => .error (.invalidLockReason value)

end LockReason

end SlashBot

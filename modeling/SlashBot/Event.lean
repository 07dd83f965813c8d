import SlashBot.Config
import SlashBot.Invocation

/-!
# Events

The service tells the bot about events, and only one kind matters: a comment that
was created. If its first line is a command, the configuration is read, and the
issue is read again, because the copy in the event may be out of date. Nothing is
changed before both were read.
-/

namespace SlashBot

/-- An event with its payload. -/
structure Event where
  name : String
  payload : Value

/-- What the handling of events depends on, besides the service. -/
structure Settings where
  trigger : String
  configPath : Option String
  draw : Int

/-- Why an event was ignored. -/
inductive Ignored where
  | unhandled (event action : String)
  | numberless
  | notCommand
  deriving DecidableEq, Repr

/-- The wording of a reason. -/
def Ignored.reason : Ignored → String
  | unhandled event action => "Unhandled event: " ++ event ++ "/" ++ action
  | numberless => "Missing issue number"
  | notCommand => "Not a slash command"

/-- How the handling of an event ended. -/
inductive Outcome where
  | ignored (cause : Ignored)
  | completed (command : Command) (applied : List Effect)
  deriving DecidableEq, Repr

namespace Event

/-- The event that brings comments. -/
def commentName : String := "issue_comment"

/-- The action of that event when a comment is new. -/
def createdAction : String := "created"

/-- The event, with this action, tells that a comment was created. -/
def isNewComment (event : Event) (action : Value) : Bool :=
  event.name == commentName && action.isText createdAction

/-- The section of the configuration for the target of an event. -/
def contextOf (payload : Value) : Except Fault String := do
  let issue ← payload.entry "issue"
  let record := if issue.isNull then payload else issue
  return if (← record.entry "pull_request").truthy then "pulls" else "issues"

/-- The issue or pull request in a payload. -/
def subjectOf (payload : Value) : Except Fault Value := do
  return (← payload.entry "issue").orElse (← payload.entry "pull_request")

/-- The comment in a payload, an empty record if there is none. -/
def commentOf (payload : Value) : Except Fault Value := do
  return (← payload.entry "comment").orElse .emptyMap

/-- The text of a comment, empty if it has none. -/
def textOf (comment : Value) : Except Fault String := do
  match (← comment.entry "body").orElse (.str "") with
  | .str text => return text
  | _ => throw .noSuchMember

/-- The login of the person who sent an event, or else of the one who wrote the
comment. -/
def senderOf (payload comment : Value) : Except Fault Value := do
  Target.login ((← payload.entry "sender").orElse (← comment.entry "user"))

/-- The configuration at a path, empty if there is no path or no file. -/
def readConfig (client : Client) (path : Option String) : Job Value := do
  match path.filter (· != "") with
  | none => return .emptyMap
  | some path =>
      match ← client.fetchFile path with
      | none =>
          Job.tell (.detail ("Config file \"" ++ path ++ "\" not found, using empty config"))
          return .emptyMap
      | some content => Config.ofText content

/-- The action set that is configured for a command in the context of a payload. What is configured
is shown before it is checked. -/
def readActions (client : Client) (path : Option String) (payload : Value) (command : Command) :
    Job (String × ActionSet) := do
  let config ← readConfig client path
  let context ← contextOf payload
  let raw ← Config.actionsFor config context command.name
  Job.tell (.detail ("Actions (" ++ context ++ "): " ++ (← raw.shown)))
  return (context, ← ActionSet.ofValue raw)

/-- The target as it is now. It is only looked up if there is something to do, but
the copy in the event must be a target in any case. -/
def readTarget (client : Client) (subject : Value) (actions : ActionSet) : Job Target := do
  let copy ← Target.ofRecord subject
  if actions.isEmpty then return copy
  else Target.ofRecord (← client.fetchIssue copy.number)

/-- Finds out what a command does to which target. This is all that is read for it. -/
def prepare (settings : Settings) (client : Client) (payload subject comment : Value)
    (command : Command) : Job (Invocation × ActionSet) := do
  let (context, actions) ← readActions client settings.configPath payload command
  let target ← readTarget client subject actions
  let sender ← senderOf payload comment
  return (⟨command, target, context, sender, settings.draw⟩, actions)

/-- Applies an action set and tells what was done. -/
def conclude (client : Client) (invocation : Invocation) (actions : ActionSet) : Job Outcome := do
  let command := invocation.command
  let (_, applied) ← (invocation.apply client actions).recording
  Job.tell
    (.note "✅"
      ("/" ++ command.name ++ " done" ++
        (if applied.isEmpty then " (nothing to do)" else ": " ++ Effect.names applied)))
  return .completed command applied

/-- Carries out a command from a comment on a subject. -/
def carryOut (settings : Settings) (client : Client) (payload subject comment : Value)
    (command : Command) : Job Outcome := do
  let number ← subject.entry "number"
  Job.tell (.note "▶" ("Command /" ++ command.name ++ " on #" ++ number.display))
  Job.tell (.detail ("Command args: " ++ (Call.textList command.args).display))
  let (invocation, actions) ← prepare settings client payload subject comment command
  conclude client invocation actions

/-- Handles an event. -/
def handle (event : Event) (settings : Settings) (client : Client) : Job Outcome := do
  let action ← event.payload.entry "action"
  let subject ← subjectOf event.payload
  if !event.isNewComment action || !subject.truthy then
    Job.tell
      (.warning
        (event.name ++ "/" ++ action.display ++
          " → ignored (only comment created events are handled)"))
    return .ignored (.unhandled event.name action.display)
  if (← subject.entry "number").isNull then
    Job.tell (.warning "Missing issue number in payload → ignored")
    return .ignored .numberless
  let comment ← commentOf event.payload
  let text ← textOf comment
  match commandLine? settings.trigger text with
  | none =>
      Job.tell (.detail ("Comment \"" ++ clip clipLimit text ++ "\" is not a slash command"))
      return .ignored .notCommand
  | some line =>
      match Command.ofLine? line with
      | none => return .ignored .notCommand
      | some command => carryOut settings client event.payload subject comment command

end Event

end SlashBot

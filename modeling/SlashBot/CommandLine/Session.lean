import SlashBot.CommandLine.Order
import SlashBot.Event

/-!
# Sessions

A session is one start of the program. It serves deliveries, or it handles the event
of the workflow in which it was started: then it ends with a status, and reports the
command that it carried out to the workflow, as lines to be appended to a file.
-/

namespace SlashBot.CommandLine

/-- What a session finds when it starts: the environment, the files that can be read,
and a number drawn for the choice of a comment. -/
structure Surroundings where
  environment : Environment
  file? : (path : String) → Option String
  draw : Int

/-- Where deliveries are to be served. -/
structure Service where
  host : String
  port : Int
  deriving DecidableEq, Repr

/-- How a session ends: with a status, and perhaps with a text to append to a file or
with deliveries to serve. -/
structure Ending where
  status : Nat
  output : Option (String × String) := none
  served : Option Service := none
  deriving DecidableEq, Repr

namespace Surroundings

/-- A value from an option, or else from a variable. An empty option counts as not
given. -/
def chosen (surroundings : Surroundings) (choice : Option String) (name : String) : String :=
  ((choice.filter (· != "")).or (surroundings.environment.get? name)).getD ""

/-- The path of the configuration, from an option or from one of two variables. -/
def configPath (surroundings : Surroundings) (choices : Choices) : Option String :=
  ((choices.config.filter (· != "")).or
    (surroundings.environment.nonempty? "INPUT_CONFIG_FILE")).or
    (surroundings.environment.nonempty? "CONFIG_FILE")

/-- The path of the file that holds the payload of the event. -/
def eventPath (surroundings : Surroundings) (choices : Choices) : String :=
  surroundings.chosen choices.eventPath "GITHUB_EVENT_PATH"

/-- The payload of the event, an empty one if it has no file. -/
def payload (surroundings : Surroundings) (choices : Choices) : Except Fault Value :=
  let path := surroundings.eventPath choices
  if path == "" then .ok .emptyMap
  else
    match surroundings.file? path with
    | none => .ok .emptyMap
    | some text => Json.ofText text

/-- The event that the session is to handle. -/
def event (surroundings : Surroundings) (choices : Choices) : Except Fault Event := do
  return ⟨surroundings.chosen choices.event "GITHUB_EVENT_NAME", ← surroundings.payload choices⟩

/-- What the handling of the event depends on. -/
def settings (surroundings : Surroundings) (choices : Choices) : Settings :=
  { trigger := surroundings.environment.trigger
    configPath := surroundings.configPath choices
    draw := surroundings.draw }

end Surroundings

/-- The lines that report a command. -/
def outputLines (command : Command) : String :=
  "command=" ++ command.name ++ "\nargs=" ++ command.input ++ "\n"

/-- The ending after an event was handled. -/
def endingOf (environment : Environment) : (outcome : Outcome) → Ending
  | .ignored _ => { status := 0 }
  | .completed command _ =>
      { status := 0
        output := (environment.nonempty? "GITHUB_OUTPUT").map fun path =>
          (path, outputLines command) }

/-- Opens the repository and handles the event. -/
def handleEvent (surroundings : Surroundings) (choices : Choices) (event : Event) :
    Job Outcome := do
  let repository := surroundings.chosen choices.repository "GITHUB_REPOSITORY"
  let client ← Client.ofEnvironment surroundings.environment repository none
  event.handle (surroundings.settings choices) client

/-- Handles the event of a workflow. A payload that cannot be read ends the session;
any later fault is reported, and the status tells of it. -/
def runEvent (surroundings : Surroundings) (choices : Choices) : Job Ending := do
  let event ← surroundings.event choices
  match ← (handleEvent surroundings choices event).attempt with
  | .ok outcome => return endingOf surroundings.environment outcome
  | .error fault =>
      Job.tell (.error ("Command failed: " ++ fault.describe))
      Job.tell (.plain ("::error::" ++ fault.describe))
      return { status := 1 }

/-- Announces the service. -/
def announce (service : Service) : Job Ending := do
  Job.tell
    (.plain ("🚀 Starting server on " ++ service.host ++ ":" ++ toString service.port))
  return { status := 0, served := some service }

/-- The session that a command line asks for. -/
def session (surroundings : Surroundings) (arguments : List String) : Job Ending :=
  match Order.ofTexts false arguments with
  | .error .helped => return { status := 0 }
  | .error .misused => return { status := 2 }
  | .ok (.run choices) => runEvent surroundings choices
  | .ok (.serve host port) => announce ⟨host, port⟩

end SlashBot.CommandLine

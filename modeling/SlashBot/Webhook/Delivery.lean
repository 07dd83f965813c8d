import SlashBot.Event
import SlashBot.Text.Case
import SlashBot.Webhook.Signature

/-!
# Deliveries

The service delivers events over HTTP. Only cheap checks are made before a delivery
is answered; a command is then carried out in the background, so that its faults
show in the log and never in the answer.
-/

namespace SlashBot

open SlashBot.Text

/-- A delivery over HTTP. Of several headers with one name the first counts. -/
structure Delivery where
  method : String
  path : String
  headers : List (String × String)
  body : List UInt8

/-- What a delivery is answered with. -/
inductive Answer where
  | record (status : Nat) (entries : List (Value × Value))
  | text (status : Nat) (content : String)

namespace Answer

/-- The status of an answer. -/
def status : Answer → Nat
  | record status _ => status
  | text status _ => status

/-- The body of an answer. -/
def body : Answer → Value
  | record _ entries => .map entries
  | text _ content => .str content

/-- The answer with a status other than success. -/
def refusal (status : Nat) (detail : String) : Answer :=
  record status [(.str "detail", .str detail)]

/-- The answer to a delivery from which nothing follows. -/
def ignored (reason : String) : Answer :=
  record 200 [(.str "status", .str "ignored"), (.str "reason", .str reason)]

/-- The answer to a delivery that brought a command. -/
def queued (command : Command) : Answer :=
  record 200 [(.str "status", .str "queued"), (.str "command", .str command.name),
    (.str "input", .str command.input)]

/-- The answer where the handling of a delivery failed. -/
def failure : Answer := text 500 "Internal Server Error"

end Answer

/-- An event that waits to be handled, with its repository. -/
structure Queued where
  repository : String
  event : Event

namespace Delivery

/-- The first value of a header. -/
def header? (delivery : Delivery) (name : String) : Option String :=
  (delivery.headers.find? fun (key, _) => String.ofList (lower key.toList) == name).map Prod.snd

/-- Answers a delivery from which nothing follows, and says so. -/
def ignore (message reason : String) : Job (Answer × Option Queued) := do
  Job.tell (.note "·" ("[WH] " ++ message))
  return (.ignored reason, none)

/-- The payload of a delivery, or the entries to log if it has none. -/
def payload? (delivery : Delivery) : Except (List Entry) Value :=
  match Json.ofOctets delivery.body with
  | .ok (.map entries) => .ok (.map entries)
  | .ok _ => .error []
  | .error _ => .error [.error "[WH] Request body is not valid JSON"]

/-- The name of the repository in a payload. -/
def repositoryOf (payload : Value) : Except Fault Value := do
  ((← payload.entry "repository").orElse .emptyMap).entry "full_name"

/-- Looks for a command in an event, and queues the event if it finds one. -/
def sift (trigger repository : String) (event : Event) : Job (Answer × Option Queued) := do
  let action ← event.payload.entry "action"
  if !event.isNewComment action then
    let shown := event.name ++ "/" ++ action.display
    ignore (shown ++ " → ignored") ("Unhandled event: " ++ shown)
  else
    let text ← Event.textOf (← Event.commentOf event.payload)
    match Command.ofComment? trigger text with
    | none =>
        ignore ("Comment \"" ++ clip clipLimit text ++ "\" → not a slash command")
          "Not a slash command"
    | some command =>
        Job.tell (.note "📥" ("[WH] Queued /" ++ command.name ++ " on " ++ repository))
        return (.queued command, some ⟨repository, event⟩)

/-- Checks the delivery of an event. -/
def check (delivery : Delivery) (environment : Environment) : Job (Answer × Option Queued) := do
  let secret := environment.get? "GITHUB_WEBHOOK_SECRET"
  if !(← Signature.accepts secret delivery.body (delivery.header? "x-hub-signature-256")) then
    Job.tell (.error "[WH] Signature verification failed")
    return (.refusal 401 "Invalid signature", none)
  let name := (delivery.header? "x-github-event").getD ""
  match delivery.payload? with
  | .error entries =>
      entries.forM Job.tell
      return (.refusal 400 "Invalid JSON payload", none)
  | .ok payload =>
      let repository ← repositoryOf payload
      if !repository.truthy then
        ignore (name ++ " without repository → ignored") "Missing repository"
      else sift environment.trigger repository.display ⟨name, payload⟩

/-- Finds the answer to a delivery by its path and its method. -/
def route (delivery : Delivery) (environment : Environment) : Job (Answer × Option Queued) := do
  if delivery.path == "/health" then
    if delivery.method == "GET" then return (.record 200 [(.str "status", .str "ok")], none)
    else return (.refusal 405 "Method Not Allowed", none)
  else if delivery.path == "/webhook/github" then
    if delivery.method == "POST" then
      match ← (delivery.check environment).attempt with
      | .ok checked => return checked
      | .error _ => return (.failure, none)
    else return (.refusal 405 "Method Not Allowed", none)
  else return (.refusal 404 "Not Found", none)

end Delivery

namespace Queued

/-- Where the configuration is read from, unless another path is set. -/
def defaultConfigPath : String := ".github/commands.yml"

/-- What the handling of queued events depends on. -/
def settings (environment : Environment) (draw : Int) : Settings :=
  { trigger := environment.trigger
    configPath := some ((environment.get? "CONFIG_FILE").getD defaultConfigPath)
    draw := draw }

/-- Opens the repository of a queued event and handles the event. -/
def carryOut (queued : Queued) (environment : Environment) (draw : Int) : Job Outcome := do
  let client ← Client.ofEnvironment environment queued.repository none
  queued.event.handle (settings environment draw) client

/-- Says how the handling of a queued event ended. -/
def report (queued : Queued) : (ending : Except Fault Outcome) → Entry
  | .error fault =>
      .error ("[WH] Command failed on " ++ queued.repository ++ ": " ++ fault.describe)
  | .ok (.completed command applied) =>
      .note "✅"
        ("[WH] /" ++ command.name ++ " on " ++ queued.repository ++ ": " ++
          (if applied.isEmpty then "nothing to apply" else Effect.names applied))
  | .ok (.ignored cause) => .note "·" ("[WH] " ++ cause.reason ++ " → ignored")

/-- Handles a queued event in the background. -/
def work (queued : Queued) (environment : Environment) (draw : Int) : Job Unit := do
  let ending ← (queued.carryOut environment draw).attempt
  Job.tell (queued.report ending)

end Queued

/-- Answers a delivery and does the work that follows from it. -/
def Delivery.handle (delivery : Delivery) (environment : Environment) (draw : Int) :
    Job Answer := do
  let (answer, queued) ← delivery.route environment
  match queued with
  | some queued => queued.work environment draw
  | none => return answer
  return answer

end SlashBot

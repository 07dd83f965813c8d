import SlashBot.CommandLine.Session
import SlashBot.Webhook.Delivery
import Std.Time.DateTime.Timestamp

/-!
# The program

The program has no network of its own. It writes its requests to standard output,
one JSON record a line, and reads the reply to each from standard input; the log goes
to standard error. When it serves, it also reads deliveries from standard input and
writes the answers, and does the work that follows from a delivery before it reads the
next.
-/

namespace SlashBot.Program

open SlashBot.CommandLine

/-- A record with some entries. -/
def record (entries : List (String × Value)) : Value :=
  .map (entries.map fun (name, value) => (.str name, value))

/-- Writes a record as one line. -/
def writeLine (value : Value) : IO Unit := do
  let output ← IO.getStdout
  output.putStr (Json.write value ++ "\n")
  output.flush

/-- Reads a record from one line, none at the end of the input. A line that is no record
counts as an empty one. -/
def readLine? : IO (Option (List (Value × Value))) := do
  let line ← (← IO.getStdin).getLine
  if line.isEmpty then return none
  match Json.ofText line with
  | .ok (.map entries) => return some entries
  | _ => return some []

/-- The text under a name, empty if there is none. -/
def textIn (entries : List (Value × Value)) (name : String) : String :=
  match Value.field entries name with
  | .str text => text
  | _ => ""

/-- The console at this moment. -/
def console (environment : Environment) : IO Console := do
  let now ← Std.Time.Timestamp.now
  return .ofEnvironment environment (Console.clockText now.toSecondsSinceUnixEpoch.val.toNat)

/-- Shows an entry of the log. -/
def showEntry (environment : Environment) (entry : Entry) : IO Unit := do
  for line in (← console environment).shown [entry] do
    IO.eprintln line

/-- Hands a request over and waits for the reply. -/
def ask (request : Request) : IO Reply := do
  let headers := record (request.headers.map fun (name, value) => (name, .str value))
  writeLine (record [("method", .str request.method.name),
    ("url", .str (request.origin ++ request.path)), ("headers", headers),
    ("body", request.body.getD .null)])
  match ← readLine? with
  | none => return .unreachable
  | some entries =>
      match Value.field entries "status" with
      | .int status =>
          return .response status.toNat (Text.encodeUtf8 (textIn entries "text").toList)
      | _ => return .unreachable

/-- Does a job. -/
def perform {α : Type} (environment : Environment) : (job : Job α) → IO (Except Fault α)
  | .done result => return .ok result
  | .fail fault => return .error fault
  | .say entry next => do
      showEntry environment entry
      perform environment next
  | .record _ next => perform environment next
  | .send request next => do
      let reply ← ask request
      perform environment (next reply)

/-- The delivery that a record describes. -/
def deliveryOf (entries : List (Value × Value)) : Delivery :=
  let headers :=
    match Value.field entries "headers" with
    | .map headers => headers.map fun (name, value) => (name.display, value.display)
    | _ => []
  { method := textIn entries "method"
    path := textIn entries "path"
    headers := headers
    body := Text.encodeUtf8 (textIn entries "body").toList }

/-- Answers deliveries until the input ends. -/
partial def serve (environment : Environment) : IO Unit := do
  match ← readLine? with
  | none => return
  | some entries =>
      match ← perform environment ((deliveryOf entries).route environment) with
      | .error _ => serve environment
      | .ok (answer, queued) =>
          writeLine (record [("status", .int answer.status), ("body", answer.body)])
          if let some queued := queued then
            let draw ← IO.rand 0 (Nat.pow 2 32)
            let _ ← perform environment (queued.work environment draw)
          serve environment

/-- The settings that the program was started with. -/
def readEnvironment : IO Environment := do
  let found ← Environment.names.mapM fun name => do
    return (← IO.getEnv name).map fun value => (name, value)
  return found.filterMap id

/-- What the session finds. Of all files only that of the event is read. -/
def surroundings (environment : Environment) (arguments : List String) : IO Surroundings := do
  let bare : Surroundings := ⟨environment, fun _ => none, ← IO.rand 0 (Nat.pow 2 32)⟩
  match Order.ofTexts false arguments with
  | .ok (.run choices) =>
      let path := bare.eventPath choices
      let content ← try some <$> IO.FS.readFile path catch _ => pure none
      return { bare with file? := fun asked => if asked == path then content else none }
  | _ => return bare

/-- Appends a text to a file. -/
def append (path text : String) : IO Unit := do
  (← IO.FS.Handle.mk path .append).putStr text

end SlashBot.Program

open SlashBot.Program in
/-- The program with its arguments; its status is that of the session. -/
def main (arguments : List String) : IO UInt32 := do
  let environment ← readEnvironment
  let surroundings ← surroundings environment arguments
  match ← perform environment (SlashBot.CommandLine.session surroundings arguments) with
  | .error fault =>
      IO.eprintln fault.describe
      return 1
  | .ok ending =>
      if let some (path, text) := ending.output then append path text
      if ending.served.isSome then serve environment
      return ending.status.toUInt32

import SlashBot.Api.Call
import SlashBot.Api.Url
import SlashBot.Job
import SlashBot.Json.Reader
import SlashBot.Json.Writer
import SlashBot.Text.Base64
import SlashBot.Value.Record

/-!
# The service

A client turns calls into requests for one repository and replies into results.
Replies with a status from 400 to 599 are refusals. The one exception is a file
that does not exist, which is no fault.
-/

namespace SlashBot

open SlashBot.Text

/-- Access to one repository of the service. The endpoint for queries is kept as it
was configured. -/
structure Client where
  repository : String
  token : String
  base : Url
  queries : String

namespace Client

/-- The base URL of the service, unless another one is configured. -/
def defaultBase : String := "https://api.github.com"

/-- The token that the environment holds. -/
def tokenOf? (environment : Environment) : Option String :=
  (environment.nonempty? "INPUT_GITHUB_TOKEN").or (environment.nonempty? "GITHUB_TOKEN")

/-- The client for a repository. A token that is given counts before the one of the
environment, if it is not empty. -/
def ofEnvironment (environment : Environment) (repository : String) (given : Option String) :
    Except Fault Client := do
  let base :=
    dropTailWhile (· == '/') ((environment.get? "GITHUB_API_URL").getD defaultBase).toList
  match (given.filter (· != "")).or (tokenOf? environment) with
  | none => throw .missingToken
  | some token =>
      return {
        repository := repository
        token := token
        base := ← Url.ofText base
        queries :=
          (environment.get? "GITHUB_GRAPHQL_URL").getD (String.ofList base ++ "/graphql") }

/-- The address of a place, before it is brought to the form in which it is sent. -/
def address (client : Client) : (place : Call.Place) → String
  | .repository path => "/repos/" ++ client.repository ++ path
  | .queries => client.queries

/-- The request that a call makes. -/
def request (client : Client) (call : Call) : Except Fault Request := do
  let url ← client.base.resolve (← Url.ofText (client.address call.place).toList)
  if (call.body.map Json.isWritable).getD true then
    return {
      call := call
      origin := url.origin
      path := String.ofList url.target
      token := client.token }
  else throw .badValue

/-- What a refusal says was asked. -/
def refusedBy (call : Call) : Refused :=
  match call, call.place with
  | .fetchFile path, _ => .file path
  | _, .repository path => .call call.method.name path
  | _, .queries => .query

/-- A status that tells of a refusal. -/
def isRefusal (status : Nat) : Bool :=
  400 ≤ status && status ≤ 599

/-- Sends a call and gives the status and the octets of the reply. -/
def exchange (client : Client) (call : Call) : Job (Nat × List UInt8) := do
  let request ← client.request call
  match ← Job.exchange request with
  | .unreachable => Job.fail .unreachable
  | .response status octets => return (status, octets)

/-- The octets of a reply that is not a refusal. -/
def accepted (call : Call) (status : Nat) (octets : List UInt8) : Except Fault (List UInt8) :=
  if isRefusal status then
    .error (.refused (refusedBy call) status (String.ofList (decodeUtf8Leniently octets)))
  else .ok octets

/-- Sends a call and gives the octets of its reply. -/
def fetch (client : Client) (call : Call) : Job (List UInt8) := do
  let (status, octets) ← client.exchange call
  accepted call status octets

/-- The text of a file that a reply describes. A reply without content describes an
empty file. -/
def fileText (octets : List UInt8) : Except Fault String := do
  let content ← (← Json.ofOctets octets).entry "content"
  if !content.truthy then return ""
  match content with
  | .str text =>
      if text.toList.any fun c => c.toNat > 127 then throw .badValue
      match decodeBase64? text.toList with
      | none => throw .incompleteBase64
      | some decoded =>
          match decodeUtf8? decoded with
          | none => throw .malformedText
          | some chars => return String.ofList chars
  | _ => throw .wrongKind

/-- The text of a file, if the file exists. -/
def fetchFile (client : Client) (path : String) : Job (Option String) := do
  let (status, octets) ← client.exchange (.fetchFile path)
  if status == 404 then return none
  return some (← fileText (← accepted (.fetchFile path) status octets))

/-- The record of an issue. -/
def fetchIssue (client : Client) (number : Value) : Job Value := do
  Json.ofOctets (← client.fetch (.fetchIssue number))

/-- Creates a comment and gives its id. -/
def createComment (client : Client) (number : Value) (text : String) : Job Value := do
  (← Json.ofOctets (← client.fetch (.createComment number text))).member "id"

/-- Fails with the errors that the reply to a query reports. -/
def checkQuery (octets : List UInt8) : Except Fault Unit := do
  let reply ← Json.ofOctets octets
  let errors ← reply.entry "errors"
  if errors.truthy then throw (.queryErrors errors)
  let _ ← reply.member "data"

/-- Sends a query. -/
def query (client : Client) (call : Call) : Job Unit := do
  checkQuery (← client.fetch call)

/-- Sends a call whose reply says nothing more than that it was accepted. -/
def order (client : Client) (call : Call) : Job Unit := do
  let _ ← client.fetch call

end Client

end SlashBot

import SlashBot.Api.Call

/-!
# Requests and replies

A request is what is sent to the service: a call, and the address it is sent to. A
reply is what came back: a status with some octets, or nothing at all if the service
was not reached.
-/

namespace SlashBot

/-- A request to the service. -/
structure Request where
  call : Call
  origin : String
  path : String
  token : String

namespace Request

/-- The method of a request is that of its call. -/
def method (request : Request) : Method := request.call.method

/-- The body of a request is that of its call. -/
def body (request : Request) : Option Value := request.call.body

/-- The headers that every request has, and the one that a body needs. -/
def headers (request : Request) : List (String × String) :=
  [("authorization", "Bearer " ++ request.token), ("accept", "application/vnd.github+json"),
    ("x-github-api-version", "2022-11-28"), ("user-agent", "slash-command-bot")] ++
    (if request.body.isSome then [("content-type", "application/json")] else [])

end Request

/-- What came back for a request. -/
inductive Reply where
  | unreachable
  | response (status : Nat) (octets : List UInt8)

end SlashBot

import SlashBot.Api.Client
import SlashBot.Proofs.Job

/-!
# Running calls

Whatever the bot asks of the service comes down to one exchange: a call that can be
addressed is sent once, and the reply decides between the octets that came back and a
fault. The operations of a client differ only in what they make of these octets.
-/

namespace SlashBot

open Client

/-- The service accepted a request. -/
def Reply.isAccepted : (reply : Reply) → Bool
  | unreachable => false
  | response status _ => !Client.isRefusal status

@[simp] theorem Job.lift_eq {α : Type} (outcome : Except Fault α) :
    (liftM outcome : Job α) = Job.ofExcept outcome := rfl

namespace Client

variable (client : Client) (server : Server) (earlier : List Request) (call : Call)

/-- What the reply to a call gives: the octets, unless the service refused the call or
was not reached. -/
def outcomeOf (call : Call) : (reply : Reply) → Except Fault (List UInt8)
  | .unreachable => .error .unreachable
  | .response status octets => accepted call status octets

/-- What becomes of a call. One that cannot be addressed fails without being sent. -/
def ask : Run (List UInt8) :=
  match client.request call with
  | .error fault => (.error fault, [])
  | .ok request =>
      (outcomeOf call (server earlier request), [.sent request (server earlier request)])

/-- The request of a call tells which call it is. -/
theorem request_call {request : Request} (made : client.request call = .ok request) :
    request.call = call := by
  rw [Client.request] at made
  cases given : Url.ofText (client.address call.place).toList with
  | error fault => simp [given, bind, Except.bind] at made
  | ok relative =>
      cases resolved : client.base.resolve relative with
      | error fault => simp [given, resolved, bind, Except.bind] at made
      | ok url =>
          simp only [given, resolved, bind, Except.bind] at made
          split at made
          · cases made
            rfl
          · cases made

/-- The requests that some calls make. A call that cannot be addressed makes none. -/
def requests (calls : List Call) : List Request :=
  calls.filterMap fun call => (client.request call).toOption

theorem requests_append (calls more : List Call) :
    client.requests (calls ++ more) = client.requests calls ++ client.requests more :=
  List.filterMap_append

/-- The requests of some calls are made for these calls, in the same order. -/
theorem calls_requests_sublist (calls : List Call) :
    ((client.requests calls).map Request.call).Sublist calls := by
  induction calls with
  | nil => exact .slnil
  | cons call calls ih =>
      rw [requests, List.filterMap_cons]
      cases made : client.request call with
      | error fault => exact ih.cons call
      | ok request =>
          simp only [Except.toOption, List.map_cons, client.request_call call made]
          exact ih.cons_cons call

/-- A call that only reads makes a request that changes nothing. -/
theorem isSafe_request {request : Request} (made : client.request call = .ok request)
    (reads : call.method.isSafe = true) : request.method.isSafe = true := by
  rw [Request.method, client.request_call call made]
  exact reads

/-- A call either fails without being sent, or it is sent once. -/
theorem ask_cases :
    (∃ fault, client.ask server earlier call = (.error fault, [])) ∨
      ∃ request, client.request call = .ok request ∧ request.call = call ∧
        client.ask server earlier call =
          (outcomeOf call (server earlier request), [.sent request (server earlier request)]) := by
  rw [ask]
  cases made : client.request call with
  | error fault => exact .inl ⟨fault, rfl⟩
  | ok request => exact .inr ⟨request, rfl, client.request_call call made, rfl⟩

theorem requestsSent_ask :
    requestsSent (client.ask server earlier call).2 = client.requests [call] := by
  rw [ask, requests]
  cases made : client.request call with
  | error fault => simp [made, Except.toOption]
  | ok request => simp [made, Except.toOption]

@[simp] theorem run_fetch : (client.fetch call).run server earlier =
    client.ask server earlier call := by
  rw [fetch, exchange, ask]
  cases client.request call with
  | error fault => simp
  | ok request =>
      cases answer : server earlier request with
      | unreachable => simp [answer, outcomeOf]
      | response status octets => simp [answer, outcomeOf]

@[simp] theorem run_order : (client.order call).run server earlier =
    (client.ask server earlier call).andThen fun _ _ => (.ok (), []) := by
  simp [order]

@[simp] theorem run_query : (client.query call).run server earlier =
    (client.ask server earlier call).andThen fun octets _ => (checkQuery octets, []) := by
  simp [query]

@[simp] theorem run_createComment (number : Value) (text : String) :
    (client.createComment number text).run server earlier =
      (client.ask server earlier (.createComment number text)).andThen fun octets _ =>
        ((Json.ofOctets octets).bind (Value.member "id"), []) := by
  simp only [createComment, Job.bind_eq, Job.lift_eq, Job.run_bind, run_fetch, Job.run_ofExcept]
  congr
  funext octets steps
  cases Json.ofOctets octets with
  | error fault => rfl
  | ok record => rfl

end Client

/-- A client for one repository of the public service. -/
def sampleClient : Client :=
  ⟨"octo/garden", "secret", ⟨"https".toList, "api.github.com".toList, [], none⟩, "/graphql"⟩

/-- A server that accepts everything, and gives every new comment the id 9. -/
def acceptAll : Server :=
  fun _ _ => .response 200 (Text.encodeUtf8 "\x7b\"id\": 9\x7d".toList)

end SlashBot

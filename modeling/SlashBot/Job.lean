import SlashBot.Api.Request
import SlashBot.Console
import SlashBot.Effect
import SlashBot.Fault

/-!
# Jobs

A job is work with the service, written down as a tree: it says entries of the
log, records effects, and sends requests, and how it goes on depends on the reply
to each of them. Nothing happens before the job is run against a server, so what
it can send is a property of the tree.
-/

namespace SlashBot

/-- Work that ends with a result or a fault. -/
inductive Job (α : Type) where
  | done (result : α)
  | fail (fault : Fault)
  | say (entry : Entry) (next : Job α)
  | record (effect : Effect) (next : Job α)
  | send (request : Request) (next : Reply → Job α)

/-- Something that happened while a job was run. -/
inductive Step where
  | said (entry : Entry)
  | recorded (effect : Effect)
  | sent (request : Request) (reply : Reply)

/-- A server answers a request in the light of those that came before it. -/
abbrev Server := (earlier : List Request) → (request : Request) → Reply

/-- What running a job gives: the outcome and everything that happened, in order. -/
abbrev Run (α : Type) := Except Fault α × List Step

namespace Step

/-- The entry that was said. -/
def entry? : Step → Option Entry
  | said entry => some entry
  | _ => none

/-- The effect that was recorded. -/
def effect? : Step → Option Effect
  | recorded effect => some effect
  | _ => none

/-- The request that was sent. -/
def request? : Step → Option Request
  | sent request _ => some request
  | _ => none

end Step

namespace Job

variable {α β : Type}

/-- Goes on with the result of a job. -/
def bind : (job : Job α) → (next : α → Job β) → Job β
  | done result, next => next result
  | fail fault, _ => fail fault
  | say entry rest, next => say entry (rest.bind next)
  | record effect rest, next => record effect (rest.bind next)
  | send request rest, next => send request fun reply => (rest reply).bind next

instance : Monad Job where
  pure := done
  bind := bind

/-- The job that ends as an outcome says. -/
def ofExcept : (outcome : Except Fault α) → Job α
  | .ok result => done result
  | .error fault => fail fault

instance : MonadLift (Except Fault) Job where
  monadLift := ofExcept

/-- Puts an entry into the log. -/
def tell (entry : Entry) : Job Unit :=
  say entry (done ())

/-- Records that an effect was applied. -/
def apply (effect : Effect) : Job Unit :=
  record effect (done ())

/-- Sends a request and waits for the reply. -/
def exchange (request : Request) : Job Reply :=
  send request done

/-- The job with its fault as a part of its result. -/
def attempt : (job : Job α) → Job (Except Fault α)
  | done result => done (.ok result)
  | fail fault => done (.error fault)
  | say entry next => say entry next.attempt
  | record effect next => record effect next.attempt
  | send request next => send request fun reply => (next reply).attempt

/-- The job with the effects that it records as a part of its result. -/
def recording : (job : Job α) → Job (α × List Effect)
  | done result => done (result, [])
  | fail fault => fail fault
  | say entry next => say entry next.recording
  | record effect next =>
      record effect (next.recording.bind fun (result, effects) => done (result, effect :: effects))
  | send request next => send request fun reply => (next reply).recording

/-- Runs a job against a server that has already had some requests. -/
def run (server : Server) : (earlier : List Request) → (job : Job α) → Run α
  | _, done result => (.ok result, [])
  | _, fail fault => (.error fault, [])
  | earlier, say entry next =>
      let (outcome, steps) := run server earlier next
      (outcome, .said entry :: steps)
  | earlier, record effect next =>
      let (outcome, steps) := run server earlier next
      (outcome, .recorded effect :: steps)
  | earlier, send request next =>
      let reply := server earlier request
      let (outcome, steps) := run server (earlier ++ [request]) (next reply)
      (outcome, .sent request reply :: steps)

end Job

/-- The entries that were said. -/
def entriesSaid (steps : List Step) : List Entry :=
  steps.filterMap Step.entry?

/-- The effects that were recorded. -/
def effectsRecorded (steps : List Step) : List Effect :=
  steps.filterMap Step.effect?

/-- The requests that were sent. -/
def requestsSent (steps : List Step) : List Request :=
  steps.filterMap Step.request?

end SlashBot

import SlashBot.Invocation

/-!
# Workers

A worker carries out action sets for one invocation, one after the other, and keeps a list of
the effects that it has applied. The list grows while the work is done, so the effects before a
fault stay in it. The target is not looked up again between two action sets.
-/

namespace SlashBot

/-- Runs a job that adds its effects to those applied before. It also gives all effects applied
up to its end. -/
def Job.runOnto {α : Type} (server : Server) :
    (earlier : List Request) → (applied : List Effect) → (job : Job α) → Run α × List Effect
  | _, applied, done result => ((.ok result, []), applied)
  | _, applied, fail fault => ((.error fault, []), applied)
  | earlier, applied, say entry next =>
      let ((outcome, steps), applied) := runOnto server earlier applied next
      ((outcome, .said entry :: steps), applied)
  | earlier, applied, record effect next =>
      let ((outcome, steps), applied) := runOnto server earlier (applied ++ [effect]) next
      ((outcome, .recorded effect :: steps), applied)
  | earlier, applied, send request next =>
      let reply := server earlier request
      let ((outcome, steps), applied) :=
        runOnto server (earlier ++ [request]) applied (next reply)
      ((outcome, .sent request reply :: steps), applied)

/-- An action set that a worker is given, with the number drawn for it. -/
structure Turn where
  actions : ActionSet
  draw : Int

/-- Somebody who works on the target of an invocation. -/
structure Worker where
  client : Client
  invocation : Invocation
  applied : List Effect

namespace Worker

/-- A worker who has not applied anything yet. -/
def fresh (client : Client) (invocation : Invocation) : Worker :=
  ⟨client, invocation, []⟩

/-- Carries out one action set, and gives all effects applied so far unless there is a fault. -/
def take (worker : Worker) (server : Server) (earlier : List Request) (turn : Turn) :
    Run (List Effect) × Worker :=
  let invocation := { worker.invocation with draw := turn.draw }
  let done := (invocation.apply worker.client turn.actions).runOnto server earlier worker.applied
  ((done.1.1.map fun _ => done.2, done.1.2), { worker with applied := done.2 })

/-- Carries out action sets in order, also after a fault, and gives all requests that the server
has had in the end. -/
def takeAll (server : Server) :
    (earlier : List Request) → (worker : Worker) → (turns : List Turn) → List Request × Worker
  | earlier, worker, [] => (earlier, worker)
  | earlier, worker, turn :: rest =>
      let taken := worker.take server earlier turn
      takeAll server (earlier ++ requestsSent taken.1.2) taken.2 rest

end Worker

end SlashBot

import SlashBot.Proofs.Following
import SlashBot.Worker

/-!
# Turns

A worker who is given one action set after the other carries nothing over from one to the next
but the list of what was applied. In each turn the worker does what a fresh one would do who
gets the same replies, and adds to the list what the fresh one would have applied. This also
holds of turns that end in a fault and of those after them.
-/

namespace SlashBot

/-- The server as it is after it has had some requests. -/
def Server.since (server : Server) (sent : List Request) : Server :=
  fun earlier request => server (sent ++ earlier) request

namespace Job

variable {α : Type} (server : Server) (earlier : List Request)

/-- What was applied before has no influence on a job, which only adds to it. -/
theorem runOnto_eq (applied : List Effect) (job : Job α) :
    job.runOnto server earlier applied =
      (job.run server earlier, applied ++ effectsRecorded (job.run server earlier).2) := by
  induction job generalizing earlier applied with
  | done result => simp [runOnto]
  | fail fault => simp [runOnto]
  | say entry next ih => simp [runOnto, run, ih]
  | record effect next ih => simp [runOnto, run, ih]
  | send request next ih => simp [runOnto, run, ih]

/-- A job that is run after some requests is run against the server as it is after them. -/
theorem run_since (sent : List Request) (job : Job α) :
    job.run (server.since sent) earlier = job.run server (sent ++ earlier) := by
  induction job generalizing earlier with
  | done result => rfl
  | fail fault => rfl
  | say entry next ih => simp only [run, ih]
  | record effect next ih => simp only [run, ih]
  | send request next ih => simp only [run, Server.since, ih, List.append_assoc]

end Job

namespace Worker

variable (worker : Worker) (server : Server) (earlier : List Request) (turn : Turn)
  (turns more : List Turn)

/-- In a turn only the list of what was applied changes. -/
theorem take_snd : (worker.take server earlier turn).2 =
    { worker with applied := (worker.take server earlier turn).2.applied } := rfl

/-- A turn is that of a fresh worker, but for what was applied before. -/
theorem take_eq (sent : List Request) :
    worker.take server sent turn =
      let ((outcome, steps), other) :=
        (fresh worker.client worker.invocation).take (server.since sent) [] turn
      ((outcome.map (worker.applied ++ ·), steps),
        { worker with applied := worker.applied ++ other.applied }) := by
  simp only [take, fresh, Job.runOnto_eq, Job.run_since, List.append_nil, List.nil_append]
  generalize Job.run server sent _ = run
  rcases run with ⟨_ | result, steps⟩ <;> rfl

/-- The turns in two lists are taken one list after the other. -/
theorem takeAll_append :
    worker.takeAll server earlier (turns ++ more) =
      let (sent, other) := worker.takeAll server earlier turns
      other.takeAll server sent more := by
  induction turns generalizing worker earlier with
  | nil => rfl
  | cons turn turns ih => exact ih _ _

/-- The client and the invocation stay the same over all turns. -/
theorem takeAll_snd : (worker.takeAll server earlier turns).2 =
    { worker with applied := (worker.takeAll server earlier turns).2.applied } := by
  induction turns generalizing worker earlier with
  | nil => rfl
  | cons turn turns ih =>
      rw [takeAll, ih, take_snd]

/-- What was applied stays at the front of the list. -/
theorem applied_prefix_takeAll :
    worker.applied <+: (worker.takeAll server earlier turns).2.applied := by
  induction turns generalizing worker earlier with
  | nil => exact List.prefix_rfl
  | cons turn turns ih =>
      have first : worker.applied <+: (worker.take server earlier turn).2.applied := by
        rw [take_eq]
        exact List.prefix_append _ _
      exact first.trans (ih _ _)

/-- Whatever a worker did before, a turn sends the requests that a fresh worker would send who
gets the same replies, and ends in the same way. The list of what was applied is the list before
the turn, followed by what the fresh worker would have applied, and whatever turns come after it
leave all of this list in its place. -/
theorem take_after_takeAll (before after : List Turn) :
    let (sent, standing) := worker.takeAll server earlier before
    let (run, next) := standing.take server sent turn
    let (freshRun, other) :=
      (fresh worker.client worker.invocation).take (server.since sent) [] turn
    next.applied = standing.applied ++ other.applied ∧
      requestsSent run.2 = requestsSent freshRun.2 ∧
      run.1 = freshRun.1.map (standing.applied ++ ·) ∧
      next.applied <+: (worker.takeAll server earlier (before ++ turn :: after)).2.applied := by
  have kept := worker.takeAll_snd server earlier before
  have continued := worker.takeAll_append server earlier before (turn :: after)
  revert kept continued
  rcases worker.takeAll server earlier before with ⟨sent, standing⟩
  intro kept continued
  have client : standing.client = worker.client := congrArg (·.client) kept
  have invocation : standing.invocation = worker.invocation := congrArg (·.invocation) kept
  have turned := standing.take_eq server turn sent
  rw [client, invocation] at turned
  refine ⟨?_, ?_, ?_, ?_⟩
  · exact congrArg (fun taken => taken.2.applied) turned
  · exact congrArg (fun taken => requestsSent taken.1.2) turned
  · exact congrArg (fun taken => taken.1.1) turned
  · rw [continued]
    exact applied_prefix_takeAll _ _ _ _

end Worker

/-- A server that refuses to change the state of an issue. -/
def refuseStates : Server := fun earlier request =>
  if request.method = .patch then .response 500 [] else acceptAll earlier request

/-- The second of four turns is refused after its comment, and the third is empty. -/
example : ((Worker.fresh sampleClient greeting).takeAll refuseStates []
    [⟨{ comments := ["Hi"] }, 0⟩, ⟨{ comments := ["Bye"], close := true, unlock := true }, 0⟩,
      ⟨{}, 0⟩, ⟨{ labels := ["new"] }, 0⟩]).2.applied = [.comment, .comment, .addLabels] := by
  decide +kernel

end SlashBot

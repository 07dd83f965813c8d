import SlashBot.Proofs.Tracking

/-!
# Conversations

A locked conversation takes no remarks, so the bot unlocks it for a comment and locks it
again afterwards. The lock step has its own say later on, and both decide by the target
as it was before anything was done. Here the lock is tracked on the side of the service,
through every request that was accepted.
-/

namespace SlashBot

namespace Call

/-- The call locks or unlocks a conversation. -/
def changesLock : (call : Call) → Bool
  | lock .. | unlock _ => true
  | _ => false

/-- The call makes a remark: a comment, or a reaction to one. -/
def remarks : (call : Call) → Bool
  | createComment .. | addReaction .. => true
  | _ => false

/-- The call neither makes a remark nor changes a lock. -/
def Plain (call : Call) : Prop :=
  call.remarks = false ∧ call.changesLock = false

/-- The reason that the body of a call gives, null if there is none. -/
def reasonGiven (call : Call) : Value :=
  match call.body with
  | some (.map entries) => Value.field entries "lock_reason"
  | _ => .null

theorem reasonGiven_lock (number : Value) {reason : Value}
    (told : reason = .null ∨ reason.truthy = true) : (lock number reason).reasonGiven = reason := by
  rcases told with rfl | present
  · rfl
  · simp [reasonGiven, body, present, single, Value.field, Value.field?]

end Call

/-- The lock of a conversation and its reason, as the service has them. -/
structure Conversation where
  locked : Bool
  reason : Value

namespace Conversation

/-- The conversation after a call was accepted. -/
def afterCall (conversation : Conversation) (call : Call) : Conversation :=
  match call with
  | .lock .. => ⟨true, call.reasonGiven⟩
  | .unlock _ => ⟨false, .null⟩
  | _ => conversation

/-- The conversation after a step. A request that was not accepted changes nothing. -/
def afterStep (conversation : Conversation) (step : Step) : Conversation :=
  match step with
  | .sent request reply =>
      if reply.isAccepted then conversation.afterCall request.call else conversation
  | _ => conversation

/-- The conversation after some steps. -/
def after (conversation : Conversation) (steps : List Step) : Conversation :=
  steps.foldl afterStep conversation

/-- Every remark among some steps was sent while the conversation was unlocked. -/
def RemarksFit (conversation : Conversation) (steps : List Step) : Prop :=
  ∀ before request reply later, steps = before ++ .sent request reply :: later →
    request.call.remarks = true → (conversation.after before).locked = false

/-! ## Tracking a conversation -/

section Tracking

variable {conversation : Conversation} {steps more : List Step}

@[simp] theorem after_nil : conversation.after [] = conversation := rfl

@[simp] theorem after_cons (step : Step) :
    conversation.after (step :: steps) = (conversation.afterStep step).after steps := rfl

@[simp] theorem after_append :
    conversation.after (steps ++ more) = (conversation.after steps).after more :=
  List.foldl_append

/-- The steps of a conversation are tracked like those of anything that the service keeps. -/
theorem after_eq_track : conversation.after steps = track afterCall conversation steps := rfl

@[simp] theorem after_unsaid : conversation.after (unsaid steps) = conversation.after steps := by
  rw [after_eq_track, after_eq_track, track_unsaid]

theorem afterCall_eq {call : Call} (settled : call.changesLock = false) :
    conversation.afterCall call = conversation := by
  cases call with
  | lock number reason => cases settled
  | unlock number => cases settled
  | _ => rfl

/-- Without calls that change it, a lock stays as it is. -/
theorem after_eq (settled : ∀ request ∈ requestsSent steps, request.call.changesLock = false) :
    conversation.after steps = conversation :=
  track_eq fun request member _ => afterCall_eq (settled request member)

theorem remarksFit_of_none
    (none : ∀ request ∈ requestsSent steps, request.call.remarks = false) :
    conversation.RemarksFit steps := by
  intro before request reply later split remarked
  subst split
  rw [none request (by simp)] at remarked
  cases remarked

/-- While nothing changes the lock, an unlocked conversation takes every remark. -/
theorem remarksFit_of_unlocked (unlocked : conversation.locked = false)
    (settled : ∀ request ∈ requestsSent steps, request.call.changesLock = false) :
    conversation.RemarksFit steps := by
  intro before request reply later split _
  subst split
  rw [after_eq fun other member => settled other (by simp [member])]
  exact unlocked

theorem RemarksFit.append (first : conversation.RemarksFit steps)
    (second : (conversation.after steps).RemarksFit more) :
    conversation.RemarksFit (steps ++ more) := by
  intro before request reply later split remarked
  rcases List.append_eq_append_iff.mp split with
    ⟨rest, rfl, inSecond⟩ | ⟨rest, inFirst, inSecond⟩
  · rw [after_append]
    exact second rest request reply later inSecond remarked
  · cases rest with
    | nil =>
        have fits := second [] request reply later inSecond.symm remarked
        rw [inFirst, List.append_nil] at fits
        exact fits
    | cons step rest =>
        rcases List.cons.inj inSecond with ⟨rfl, rfl⟩
        exact first before request reply rest inFirst remarked

theorem remarksFit_of_unsaid (fits : conversation.RemarksFit (unsaid steps)) :
    conversation.RemarksFit steps := by
  intro before request reply later split remarked
  subst split
  rw [← after_unsaid]
  exact fits _ request reply (unsaid later) (by simp) remarked

/-- An accepted call changes the conversation, and one that failed does not. -/
theorem after_ask (client : Client) (server : Server) (earlier : List Request) (call : Call) :
    conversation.after (client.ask server earlier call).2 =
      match (client.ask server earlier call).1 with
      | .ok _ => conversation.afterCall call
      | .error _ => conversation :=
  track_ask client server earlier call

end Tracking

/-! ## Executing tasks -/

/-- Executing some tasks makes remarks only while the conversation is unlocked, and if it
goes through, it leaves the conversation as stated. -/
structure Leads (client : Client) (start : Conversation) (tasks : List Task)
    (final : Conversation) : Prop where
  fits : ∀ server earlier comment,
    start.RemarksFit (Task.execute client server earlier comment tasks).2
  settles : ∀ server earlier comment newest steps,
    Task.execute client server earlier comment tasks = (.ok newest, steps) →
      start.after steps = final

section Leading

variable {client : Client} {start middle final : Conversation} {tasks more : List Task}

theorem Leads.append (first : Leads client start tasks middle)
    (second : Leads client middle more final) : Leads client start (tasks ++ more) final where
  fits server earlier comment := by
    have fits := first.fits server earlier comment
    have settles := first.settles server earlier comment
    rw [Task.execute_append]
    revert fits settles
    rcases Task.execute client server earlier comment tasks with ⟨_ | newest, steps⟩
    · intro fits _
      exact fits
    · intro fits settles
      apply fits.append
      rw [settles newest steps rfl]
      exact second.fits server _ newest
  settles server earlier comment newest steps executed := by
    obtain ⟨between, done, others, opened, closed, rfl⟩ := Task.of_execute_append_ok executed
    rw [after_append, first.settles _ _ _ _ _ opened]
    exact second.settles _ _ _ _ _ closed

/-- Tasks that do not change the lock may make remarks in an unlocked conversation. -/
theorem leads_unlocked (unlocked : start.locked = false)
    (settled : EachCall (fun call => call.changesLock = false) tasks) :
    Leads client start tasks start where
  fits server earlier comment := remarksFit_of_unlocked unlocked fun _ sent => settled.sent sent
  settles server earlier comment newest steps executed := by
    have each : ∀ request ∈ requestsSent (Task.execute client server earlier comment tasks).2,
        request.call.changesLock = false := fun _ sent => settled.sent sent
    rw [executed] at each
    exact after_eq each

/-- Tasks without remarks that do not change the lock pass over the conversation. -/
theorem leads_plain (plain : EachCall Call.Plain tasks) : Leads client start tasks start where
  fits server earlier comment := remarksFit_of_none fun _ sent => (plain.sent sent).1
  settles server earlier comment newest steps executed := by
    have each : ∀ request ∈ requestsSent (Task.execute client server earlier comment tasks).2,
        request.call.Plain := fun _ sent => plain.sent sent
    rw [executed] at each
    exact after_eq fun request sent => (each request sent).2

/-- A call that makes no remark changes the conversation as the service does it. -/
theorem leads_call (call : Call) (effect : Option Effect) (silent : call.remarks = false) :
    Leads client start [⟨.ask call, effect⟩] (start.afterCall call) where
  fits server earlier comment := by
    have noRemark : EachCall (fun call => call.remarks = false) [⟨.ask call, effect⟩] :=
      eachCall_singleton effect fun _ same => same ▸ silent
    exact remarksFit_of_none fun _ sent => noRemark.sent sent
  settles server earlier comment newest steps executed := by
    have asked : start.after _ = _ := after_ask client server earlier call
    rw [Task.execute_singleton, Task.perform, Work.perform] at executed
    revert executed asked
    rcases client.ask server earlier call with ⟨_ | octets, done⟩
    · intro executed
      cases executed
    · simp only [Run.andThen_ok, List.append_nil]
      cases call.newest comment octets with
      | error fault =>
          intro executed
          cases executed
      | ok given =>
          intro executed asked
          rcases Prod.mk.inj executed with ⟨-, rfl⟩
          rw [after_append, asked]
          cases effect <;> rfl

theorem leads_unlock (number : Value) (effect : Option Effect) :
    Leads client start [⟨.ask (.unlock number), effect⟩] ⟨false, .null⟩ :=
  leads_call _ effect rfl

theorem leads_lock (number : Value) {reason : Value} (effect : Option Effect)
    (told : reason = .null ∨ reason.truthy = true) :
    Leads client start [⟨.ask (.lock number reason), effect⟩] ⟨true, reason⟩ := by
  have locked : Leads client start _ (start.afterCall (.lock number reason)) :=
    leads_call (.lock number reason) effect rfl
  rw [afterCall, Call.reasonGiven_lock number told] at locked
  exact locked

/-! Running a job is executing the tasks that it follows. -/

variable {job : Job Unit} {server : Server} {earlier : List Request}

theorem sent_run {property : Call → Prop} (each : EachCall property tasks)
    (follows : Follows client job tasks) {request : Request}
    (sent : request ∈ requestsSent (job.run server earlier).2) : property request.call := by
  rcases Prod.mk.inj (follows .null server earlier) with ⟨-, sameSteps⟩
  rw [← requestsSent_unsaid, sameSteps] at sent
  exact each.sent sent

theorem Leads.fits_run (led : Leads client start tasks final)
    (follows : Follows client job tasks) : start.RemarksFit (job.run server earlier).2 := by
  rcases Prod.mk.inj (follows .null server earlier) with ⟨-, sameSteps⟩
  apply remarksFit_of_unsaid
  rw [sameSteps]
  exact led.fits server earlier .null

theorem Leads.settles_run (led : Leads client start tasks final)
    (follows : Follows client job tasks) (ended : (job.run server earlier).1 = .ok ()) :
    start.after (job.run server earlier).2 = final := by
  obtain ⟨newest, executed⟩ := follows.exists_executed ended .null
  rw [← after_unsaid]
  exact led.settles server earlier .null newest _ executed

end Leading

end Conversation

end SlashBot

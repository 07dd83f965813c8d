import SlashBot.Proofs.Conversation

/-!
# Honouring a lock

Applying an action set unlocks a locked conversation for its remarks, locks it again, and
then locks or unlocks it as configured. Each part of a plan leads from one state of the
conversation to another, and together they lead to the one that the action set asks for.
-/

namespace SlashBot

open Conversation

/-! ## The lock of a target -/

/-- The conversation of a target, as it was before anything was done. -/
def Target.conversation (target : Target) : Conversation :=
  ⟨target.locked, target.lockReason⟩

/-- The conversation that an action set asks for. -/
def Conversation.settled (conversation : Conversation) (actions : ActionSet) : Conversation :=
  if conversation.locked then if actions.unlock then ⟨false, .null⟩ else conversation
  else if actions.lock then ⟨true, Invocation.sentReason actions.lockReason⟩ else conversation

theorem Conversation.locked_settled (conversation : Conversation) (actions : ActionSet) :
    (conversation.settled actions).locked = true ↔
      (conversation.locked = true ∧ actions.unlock = false) ∨
        (conversation.locked = false ∧ actions.lock = true) := by
  rcases conversation with ⟨locked, reason⟩
  rw [settled]
  cases locked <;> cases actions.lock <;> cases actions.unlock <;> simp

theorem Conversation.reason_settled {conversation : Conversation} {actions : ActionSet}
    (locked : (conversation.settled actions).locked = true) :
    (conversation.settled actions).reason =
      if conversation.locked then conversation.reason
      else Invocation.sentReason actions.lockReason := by
  rcases conversation with ⟨before, reason⟩
  rw [settled] at locked ⊢
  cases before with
  | false =>
      cases wanted : actions.lock with
      | false => simp [wanted] at locked
      | true => simp
  | true =>
      cases wanted : actions.unlock with
      | false => simp
      | true => simp [wanted] at locked

/-- The call changes no lock but that of the target. -/
def Target.OwnLock (target : Target) (call : Call) : Prop :=
  call.changesLock = true →
    call = .unlock target.number ∨ ∃ reason, call = .lock target.number reason

theorem Target.ownLock_of_settled {target : Target} {call : Call}
    (settled : call.changesLock = false) : target.OwnLock call := by
  intro changes
  rw [settled] at changes
  cases changes

namespace Invocation

variable {client : Client} (invocation : Invocation) (actions : ActionSet)

theorem plain_planPins : EachCall Call.Plain (invocation.planPins actions) :=
  invocation.eachCall_planPins actions (fun _ => ⟨rfl, rfl⟩) fun _ => ⟨rfl, rfl⟩

theorem plain_planState : EachCall Call.Plain (invocation.planState actions) :=
  invocation.eachCall_planState actions fun _ _ => ⟨rfl, rfl⟩

theorem plain_planLabels : EachCall Call.Plain (invocation.planLabels actions) :=
  invocation.eachCall_planLabels actions (fun _ _ => ⟨rfl, rfl⟩) fun _ _ => ⟨rfl, rfl⟩

theorem plain_planPeople : EachCall Call.Plain (invocation.planPeople actions) :=
  invocation.eachCall_planPeople actions (fun _ _ => ⟨rfl, rfl⟩) fun _ _ => ⟨rfl, rfl⟩

theorem plain_planDispatch : EachCall Call.Plain (invocation.planDispatch actions) :=
  invocation.eachCall_planDispatch actions fun _ _ => ⟨rfl, rfl⟩

/-- Remarks do not change the lock. -/
theorem settled_planRemarks (text : String) (reactions : List String) :
    EachCall (fun call => call.changesLock = false) (invocation.planRemarks text reactions) :=
  invocation.eachCall_planRemarks text reactions (fun _ _ => rfl) fun _ _ => rfl

/-- A locked conversation is unlocked for the remarks, and locked again as it was. -/
theorem leads_planComment
    (told : invocation.target.lockReason = .null ∨ invocation.target.lockReason.truthy = true) :
    Leads client invocation.target.conversation (invocation.planComment actions)
      invocation.target.conversation := by
  unfold planComment
  cases invocation.commentText? actions with
  | none => exact leads_plain eachCall_nil
  | some rendered =>
      cases rendered with
      | error fault => exact leads_plain (eachCall_halt fault)
      | ok text =>
          have settled := invocation.settled_planRemarks text actions.reactions
          cases locked : invocation.target.locked with
          | false =>
              simp only [locked, Bool.false_eq_true, if_false]
              exact leads_unlocked locked settled
          | true =>
              simp only [if_true, Target.conversation, locked]
              exact ((leads_unlock _ none).append (leads_unlocked rfl settled)).append
                (leads_lock _ none told)

theorem sentReason_told (reason : Option LockReason) :
    sentReason reason = .null ∨ (sentReason reason).truthy = true := by
  rcases reason with _ | reason
  · exact .inl rfl
  · cases reason <;> exact .inr (by decide)

theorem leads_planIf {start final : Conversation} {call : Call} {effect : Effect} (wanted : Bool)
    (led : Leads client start [⟨.ask call, some effect⟩] final) :
    Leads client start (planIf wanted call effect) (if wanted then final else start) := by
  cases wanted with
  | false => exact leads_plain eachCall_nil
  | true => exact led

theorem leads_planLock :
    Leads client invocation.target.conversation (invocation.planLock actions)
      (invocation.target.conversation.settled actions) := by
  have same : invocation.target.conversation.settled actions =
      if actions.unlock && invocation.target.locked then ⟨false, .null⟩
      else if actions.lock && !invocation.target.locked then
        ⟨true, sentReason actions.lockReason⟩
      else invocation.target.conversation := by
    rw [Conversation.settled, Target.conversation]
    cases invocation.target.locked <;> cases actions.lock <;> cases actions.unlock <;> rfl
  rw [same]
  exact (leads_planIf _ (leads_lock _ _ (sentReason_told _))).append
    (leads_planIf _ (leads_unlock _ _))

/-- A plan leaves the conversation as the action set asks for it. -/
theorem leads_plan
    (told : invocation.target.lockReason = .null ∨ invocation.target.lockReason.truthy = true) :
    Leads client invocation.target.conversation (invocation.plan actions)
      (invocation.target.conversation.settled actions) :=
  (leads_plain (invocation.plain_planPins actions)).append <|
    (invocation.leads_planComment actions told).append <|
    (leads_plain (invocation.plain_planState actions)).append <|
    (invocation.leads_planLock actions).append <|
    leads_plain <|
    (invocation.plain_planLabels actions).append <|
    (invocation.plain_planPeople actions).append <|
    invocation.plain_planDispatch actions

theorem applyComment_of_text {text : String}
    (rendered : invocation.commentText? actions = some (.ok text)) :
    invocation.applyComment client actions =
      (Job.tell (.note "💬" ("Commenting on " ++ invocation.shownNumber))).bind fun _ =>
        invocation.whileUnlocked client (invocation.comment client text actions.reactions) := by
  rw [applyComment]
  rw [commentText?] at rendered
  cases picked : ActionSet.pickComment? invocation.draw actions.comments with
  | none => simp [picked] at rendered
  | some template =>
      simp only [picked, Option.map_some, Option.some.injEq] at rendered
      simp only [rendered]
      rfl

/-- An action set with a comment is not empty. -/
theorem isEmpty_of_commentText? {rendered : Except Fault String}
    (commented : invocation.commentText? actions = some rendered) : actions.isEmpty = false := by
  cases empty : actions.isEmpty with
  | false => rfl
  | true =>
      rw [ActionSet.eq_of_isEmpty empty] at commented
      cases commented

/-- A fault among the remarks ends the work before the conversation is locked again. -/
theorem run_interrupted {server : Server} {earlier : List Request} {text : String}
    {opening remarking : List Step} {fault : Fault} (locked : invocation.target.locked = true)
    (rendered : invocation.commentText? actions = some (.ok text))
    (opened : ((invocation.applyPins client actions).bind fun _ =>
      client.order (.unlock invocation.target.number)).run server earlier = (.ok (), opening))
    (remarked : (invocation.comment client text actions.reactions).run server
      (earlier ++ requestsSent opening) = (.error fault, remarking)) :
    ((invocation.apply client actions).run server earlier).1 = .error fault ∧
      unsaid ((invocation.apply client actions).run server earlier).2 =
        unsaid (opening ++ remarking) := by
  rcases Job.of_bind_ok opened with ⟨_, pinned, unlocking, pinsRan, unlockRan, rfl⟩
  rw [requestsSent_append] at remarked
  rw [apply, invocation.isEmpty_of_commentText? actions rendered,
    invocation.applyComment_of_text actions rendered, whileUnlocked, locked]
  simp only [Bool.false_eq_true, if_false, if_true, Job.bind_eq, Job.run_bind, Job.run_tell,
    pinsRan, Run.andThen_ok, requestsSent_said, requestsSent_nil, List.append_nil, unlockRan,
    remarked, Run.andThen_error, unsaid_append, unsaid_said, List.nil_append,
    List.cons_append, List.append_assoc, and_self]

/-- Once the target is unlocked for the remarks, so is the conversation. -/
theorem after_opening {server : Server} {earlier : List Request} {opening : List Step}
    (opened : ((invocation.applyPins client actions).bind fun _ =>
      client.order (.unlock invocation.target.number)).run server earlier = (.ok (), opening)) :
    invocation.target.conversation.after opening = ⟨false, .null⟩ := by
  have opens : Follows client _ _ := (invocation.follows_planPins actions).bind
    (follows_order (.unlock invocation.target.number) fun _ _ => rfl)
  have led : Leads client invocation.target.conversation _ ⟨false, .null⟩ :=
    (leads_plain (invocation.plain_planPins actions)).append
      (leads_unlock invocation.target.number none)
  have ended := congrArg Prod.fst opened
  have settles := led.settles_run opens ended
  rw [opened] at settles
  exact settles

/-- The remarks themselves change no lock. -/
theorem settled_comment {server : Server} {earlier : List Request} {text : String}
    {reactions : List String} {outcome : Except Fault Unit} {remarking : List Step}
    (remarked : (invocation.comment client text reactions).run server earlier =
      (outcome, remarking)) :
    ∀ request ∈ requestsSent remarking, request.call.changesLock = false := by
  intro request sent
  have same : remarking = ((invocation.comment client text reactions).run server earlier).2 := by
    rw [remarked]
  rw [same] at sent
  exact sent_run (invocation.settled_planRemarks text reactions)
    (follows_comment invocation text reactions) sent

/-- A comment that cannot be rendered ends the work after the pins. -/
theorem run_unrendered {server : Server} {earlier : List Request} {fault : Fault}
    (failed : invocation.commentText? actions = some (.error fault)) :
    ((invocation.apply client actions).run server earlier).1 ≠ .ok () ∧
      ∀ request ∈ requestsSent ((invocation.apply client actions).run server earlier).2,
        request.call.Plain := by
  have halted : invocation.planComment actions = [⟨.halt fault, none⟩] := by
    rw [planComment, failed]
  rcases Prod.mk.inj (invocation.follows_plan actions .null server earlier) with ⟨ended, same⟩
  rw [ended, ← requestsSent_unsaid, same, plan, Task.execute_append, halted]
  have plain : ∀ request ∈ requestsSent
      (Task.execute client server earlier .null (invocation.planPins actions)).2,
      request.call.Plain := fun _ sent => (invocation.plain_planPins actions).sent sent
  revert plain
  rcases Task.execute client server earlier .null (invocation.planPins actions) with
    ⟨cause | newest, steps⟩
  · intro plain
    refine ⟨?_, plain⟩
    intro same
    cases same
  · intro plain
    simp only [Run.andThen_ok, List.singleton_append, Task.execute, Task.perform, Work.perform,
      Run.andThen_error, List.append_nil]
    refine ⟨?_, plain⟩
    intro same
    cases same

/-- Every change of a lock in a plan is one of the target. -/
theorem ownLock_plan : EachCall invocation.target.OwnLock (invocation.plan actions) := by
  have ofPlain {tasks : List Task} (plain : EachCall Call.Plain tasks) :
      EachCall invocation.target.OwnLock tasks :=
    plain.mono fun _ isPlain => Target.ownLock_of_settled isPlain.2
  have unlock : invocation.target.OwnLock (.unlock invocation.target.number) :=
    fun _ => .inl rfl
  have lock (reason : Value) : invocation.target.OwnLock (.lock invocation.target.number reason) :=
    fun _ => .inr ⟨reason, rfl⟩
  have comment : EachCall invocation.target.OwnLock (invocation.planComment actions) := by
    rw [planComment]
    cases invocation.commentText? actions with
    | none => exact eachCall_nil
    | some rendered =>
        cases rendered with
        | error fault => exact eachCall_halt fault
        | ok text =>
            have remarks : EachCall invocation.target.OwnLock
                (invocation.planRemarks text actions.reactions) :=
              (invocation.settled_planRemarks text actions.reactions).mono
                fun _ settled => Target.ownLock_of_settled settled
            dsimp only
            split
            · exact ((eachCall_singleton none fun _ same => same ▸ unlock).append remarks).append
                (eachCall_singleton none fun _ same => same ▸ lock _)
            · exact remarks
  exact (ofPlain (invocation.plain_planPins actions)).append <|
    comment.append <|
    (ofPlain (invocation.plain_planState actions)).append <|
    ((eachCall_planIf _ _ _ (lock _)).append (eachCall_planIf _ _ _ unlock)).append <|
    ofPlain <|
    (invocation.plain_planLabels actions).append <|
    (invocation.plain_planPeople actions).append <|
    invocation.plain_planDispatch actions

/-- What a run does to the lock of a conversation with the target, which starts out as the
target has it. -/
structure HonoursLock (client : Client) (server : Server) (earlier : List Request)
    (start : Conversation) (run : Run Unit) : Prop where
  /-- Every remark is sent while the conversation is unlocked. -/
  remarks : start.RemarksFit run.2
  /-- No other conversation is locked or unlocked. -/
  own : ∀ request ∈ requestsSent run.2, invocation.target.OwnLock request.call
  /-- A run that ends well leaves the conversation locked if it was and stays so, or if it
  was not and is to be. -/
  locked : run.1 = .ok () →
    ((start.after run.2).locked = true ↔
      (start.locked = true ∧ actions.unlock = false) ∨
        (start.locked = false ∧ actions.lock = true))
  /-- The reason of a lock that was there before stays, and a new lock has the configured
  reason. -/
  reason : run.1 = .ok () → (start.after run.2).locked = true →
    (start.after run.2).reason =
      if start.locked then start.reason else sentReason actions.lockReason
  /-- If the conversation was unlocked for the remarks and then one of them fails, this is
  the end, and the conversation stays unlocked. -/
  interrupted : ∀ text fault opening remarking, start.locked = true →
    invocation.commentText? actions = some (.ok text) →
    ((invocation.applyPins client actions).bind fun _ =>
      client.order (.unlock invocation.target.number)).run server earlier = (.ok (), opening) →
    (invocation.comment client text actions.reactions).run server
      (earlier ++ requestsSent opening) = (.error fault, remarking) →
    run.1 = .error fault ∧
      requestsSent run.2 = requestsSent opening ++ requestsSent remarking ∧
      (∀ request ∈ requestsSent remarking, request.call.changesLock = false) ∧
      (start.after run.2).locked = false
  /-- A comment that cannot be rendered is a fault before anything is unlocked. -/
  unrendered : ∀ fault, invocation.commentText? actions = some (.error fault) →
    run.1 ≠ .ok () ∧
      (∀ request ∈ requestsSent run.2, request.call.changesLock = false) ∧
      start.after run.2 = start

end Invocation

/-- Applying an action set honours the lock of the conversation, whatever it asks for and
whatever the service replies. -/
theorem apply_honours_lock (invocation : Invocation) (actions : ActionSet) (client : Client)
    (server : Server) (earlier : List Request)
    (told : invocation.target.lockReason = .null ∨ invocation.target.lockReason.truthy = true) :
    invocation.HonoursLock actions client server earlier invocation.target.conversation
      ((invocation.apply client actions).run server earlier) where
  remarks := (invocation.leads_plan actions told).fits_run (invocation.follows_plan actions)
  own _ sent := sent_run (invocation.ownLock_plan actions) (invocation.follows_plan actions) sent
  locked ended := by
    rw [(invocation.leads_plan actions told).settles_run (invocation.follows_plan actions) ended]
    exact Conversation.locked_settled _ actions
  reason ended locked := by
    rw [(invocation.leads_plan actions told).settles_run (invocation.follows_plan actions) ended]
      at locked ⊢
    exact Conversation.reason_settled locked
  interrupted text fault opening remarking locked rendered opened remarked := by
    rcases invocation.run_interrupted actions locked rendered opened remarked with ⟨ended, same⟩
    have settled := invocation.settled_comment remarked
    have sent := congrArg requestsSent same
    rw [requestsSent_unsaid, requestsSent_unsaid, requestsSent_append] at sent
    refine ⟨ended, sent, settled, ?_⟩
    rw [← after_unsaid, same, after_unsaid, after_append,
      invocation.after_opening actions opened, after_eq settled]
  unrendered fault failed := by
    rcases invocation.run_unrendered actions failed with ⟨ended, plain⟩
    have settled := fun request sent => (plain request sent).2
    exact ⟨ended, settled, after_eq settled⟩

/-- The issue is unlocked, greeted and locked again. -/
theorem apply_honours_lock_greeting :
    greeting.HonoursLock { comments := ["Hi"], reactions := ["eyes"] } sampleClient acceptAll []
        greeting.target.conversation
        ((greeting.apply sampleClient { comments := ["Hi"], reactions := ["eyes"] }).run
          acceptAll []) ∧
      (requestsSent ((greeting.apply sampleClient
        { comments := ["Hi"], reactions := ["eyes"] }).run acceptAll []).2).map Request.method =
        [.delete, .post, .post, .put] :=
  ⟨apply_honours_lock _ _ _ _ _ (.inr rfl), by decide +kernel⟩

end SlashBot

import SlashBot.Proofs.Locking

/-!
# Convergence

Whether the state and the lock of a target are changed depends on what they were before. A
run that ends well leaves them so that they need no change, unless the action set asks for
opposites, and a run on what it has left keeps them. Only around a comment is a locked
conversation still unlocked and locked again, with the reason that it had.
-/

namespace SlashBot

open Conversation

/-! ## Standings -/

/-- The state and the conversation of an issue, as the service has them. -/
structure Standing where
  state : Value
  conversation : Conversation

/-- The standing of a target, as it was before anything was done. -/
def Target.standing (target : Target) : Standing :=
  ⟨target.state, target.conversation⟩

/-- The call changes the state or the lock of an issue. -/
def Call.changesStanding (call : Call) : Bool :=
  match call with
  | .setState .. => true
  | call => call.changesLock

theorem Call.reasonGiven_told (number reason : Value) :
    (lock number reason).reasonGiven = .null ∨ (lock number reason).reasonGiven.truthy = true := by
  by_cases present : reason.truthy = true
  · rw [reasonGiven_lock number (.inr present)]
    exact .inr present
  · exact .inl (by simp [reasonGiven, body, present])

namespace Standing

/-- The standing after a call was accepted. -/
def afterCall (standing : Standing) (call : Call) : Standing :=
  match call with
  | .setState _ state => { standing with state := .str state }
  | call => { standing with conversation := standing.conversation.afterCall call }

/-- The standing after some steps. -/
def after (standing : Standing) (steps : List Step) : Standing :=
  track afterCall standing steps

theorem afterCall_eq (standing : Standing) {call : Call}
    (still : call.changesStanding = false) : standing.afterCall call = standing := by
  cases call with
  | setState number state => cases still
  | lock number reason => cases still
  | unlock number => cases still
  | _ => rfl

/-- An action set has nothing to change in a standing. -/
structure IsSettled (standing : Standing) (actions : ActionSet) : Prop where
  reopened : actions.reopen = true → standing.state.isText "closed" = false
  closed : actions.close = true → standing.state.isText "open" = false
  locked : actions.lock = true → standing.conversation.locked = true
  unlocked : actions.unlock = true → standing.conversation.locked = false
  /-- If there are comments to make in a locked conversation, its reason is one that the
  service takes. -/
  told : actions.comments ≠ [] → standing.conversation.locked = true →
    standing.conversation.reason = .null ∨ standing.conversation.reason.truthy = true

end Standing

/-- The action set does not ask for opposites. -/
structure ActionSet.IsConsistent (actions : ActionSet) : Prop where
  state : actions.reopen = true → actions.close = false
  lock : actions.lock = true → actions.unlock = false

/-- Some calls keep the standing of a target: they do not change it, or they unlock a
conversation for a comment with its reactions and lock it again as it was. -/
inductive Target.KeepsStanding (target : Target) : (calls : List Call) → Prop
  | still {calls : List Call} (each : ∀ call ∈ calls, call.changesStanding = false) :
      KeepsStanding target calls
  | around {front reactions back : List Call} (text : String)
      (locked : target.locked = true)
      (before : ∀ call ∈ front, call.changesStanding = false)
      (reacted : ∀ call ∈ reactions, ∃ comment name, call = .addReaction comment name)
      (behind : ∀ call ∈ back, call.changesStanding = false) :
      KeepsStanding target
        (front ++ ([.unlock target.number, .createComment target.number text] ++ reactions ++
          [.lock target.number target.lockReason]) ++ back)

namespace Target.KeepsStanding

variable {target : Target} {calls others : List Call}

theorem behind (still : ∀ call ∈ others, call.changesStanding = false)
    (keeps : target.KeepsStanding calls) : target.KeepsStanding (others ++ calls) := by
  cases keeps with
  | still each =>
      refine .still fun call member => ?_
      rcases List.mem_append.mp member with inFirst | inSecond
      · exact still call inFirst
      · exact each call inSecond
  | @around front reactions back text locked before reacted behind =>
      have opening : ∀ call ∈ others ++ front, call.changesStanding = false := by
        intro call member
        rcases List.mem_append.mp member with inFirst | inSecond
        · exact still call inFirst
        · exact before call inSecond
      have kept := around text locked opening reacted behind
      simpa only [List.append_assoc] using kept

theorem before (keeps : target.KeepsStanding calls)
    (still : ∀ call ∈ others, call.changesStanding = false) :
    target.KeepsStanding (calls ++ others) := by
  cases keeps with
  | still each =>
      refine .still fun call member => ?_
      rcases List.mem_append.mp member with inFirst | inSecond
      · exact each call inFirst
      · exact still call inSecond
  | @around front reactions back text locked before reacted behind =>
      have closing : ∀ call ∈ back ++ others, call.changesStanding = false := by
        intro call member
        rcases List.mem_append.mp member with inFirst | inSecond
        · exact behind call inFirst
        · exact still call inSecond
      have kept := around text locked before reacted closing
      simpa only [List.append_assoc] using kept

end Target.KeepsStanding

/-! ## What a plan leads to -/

namespace Invocation

variable {invocation : Invocation} {actions : ActionSet}

theorem still_planPins :
    EachCall (fun call => call.changesStanding = false) (invocation.planPins actions) :=
  invocation.eachCall_planPins actions (fun _ => rfl) fun _ => rfl

theorem still_planRemarks (text : String) (reactions : List String) :
    EachCall (fun call => call.changesStanding = false)
      (invocation.planRemarks text reactions) :=
  invocation.eachCall_planRemarks text reactions (fun _ _ => rfl) fun _ _ => rfl

/-- Nothing behind the lock changes the standing. -/
theorem still_planRest :
    EachCall (fun call => call.changesStanding = false)
      (invocation.planLabels actions ++
        (invocation.planPeople actions ++ invocation.planDispatch actions)) :=
  (invocation.eachCall_planLabels actions (fun _ _ => rfl) fun _ _ => rfl).append <|
  (invocation.eachCall_planPeople actions (fun _ _ => rfl) fun _ _ => rfl).append <|
  invocation.eachCall_planDispatch actions fun _ _ => rfl

theorem changes_eq_of_still {tasks : List Task} (standing : Standing)
    (still : EachCall (fun call => call.changesStanding = false) tasks) :
    Task.changes Standing.afterCall standing tasks = standing :=
  Task.changes_eq (still.mono fun _ spared other => other.afterCall_eq spared)

section Planning

variable (invocation actions)

/-- A comment is made if there are some to choose from. -/
theorem commentText?_eq_none_iff :
    invocation.commentText? actions = none ↔ actions.comments = [] := by
  rw [commentText?, Option.map_eq_none_iff, ActionSet.pickComment?, List.getElem?_eq_none_iff]
  cases comments : actions.comments with
  | nil => simp
  | cons template templates =>
      have positive : (0 : Int) < (template :: templates).length := by simp
      have inside : invocation.draw.emod _ < _ := Int.emod_lt_of_pos invocation.draw positive
      have natural : 0 ≤ invocation.draw.emod _ :=
        Int.emod_nonneg invocation.draw (Int.ne_of_gt positive)
      constructor
      · intro outside
        simp only [List.length_cons] at outside inside natural positive
        omega
      · intro none
        cases none

/-- The conversation after the target was locked again for a comment. -/
def relocked (invocation : Invocation) : Conversation :=
  ⟨true, (Call.lock invocation.target.number invocation.target.lockReason).reasonGiven⟩

/-- The standing that the plan for an action set leads to. -/
def settled (invocation : Invocation) (actions : ActionSet) : Standing :=
  let target := invocation.target
  { state :=
      if actions.close && target.isOpen then .str "closed"
      else if actions.reopen && target.isClosed then .str "open"
      else target.state
    conversation :=
      if actions.unlock && target.locked then ⟨false, .null⟩
      else if actions.lock && !target.locked then ⟨true, sentReason actions.lockReason⟩
      else if actions.comments ≠ [] ∧ target.locked = true then invocation.relocked
      else target.conversation }

theorem changes_planComment
    (unfailing : ∀ fault, invocation.commentText? actions ≠ some (.error fault)) :
    Task.changes Standing.afterCall invocation.target.standing (invocation.planComment actions) =
      { state := invocation.target.state
        conversation :=
          if actions.comments ≠ [] ∧ invocation.target.locked = true then invocation.relocked
          else invocation.target.conversation } := by
  rw [planComment]
  cases commented : invocation.commentText? actions with
  | none =>
      simp [(invocation.commentText?_eq_none_iff actions).mp commented, Task.changes,
        Target.standing]
  | some rendered =>
      have present : actions.comments ≠ [] := by
        intro none
        rw [(invocation.commentText?_eq_none_iff actions).mpr none] at commented
        cases commented
      cases rendered with
      | error fault => exact absurd commented (unfailing fault)
      | ok text =>
          have remarks (standing : Standing) :=
            changes_eq_of_still standing (invocation.still_planRemarks text actions.reactions)
          cases locked : invocation.target.locked with
          | false => simp [remarks, Target.standing]
          | true =>
              simp only [if_true, Task.changes_append, remarks, present, ne_eq, not_false_eq_true,
                and_self]
              rfl

theorem changes_planState (standing : Standing) :
    Task.changes Standing.afterCall standing (invocation.planState actions) =
      { standing with
        state :=
          if actions.close && invocation.target.isOpen then .str "closed"
          else if actions.reopen && invocation.target.isClosed then .str "open"
          else standing.state } := by
  simp only [planState, Task.changes_append, Task.changes_planIf]
  cases actions.close && invocation.target.isOpen <;>
    cases actions.reopen && invocation.target.isClosed <;> rfl

theorem changes_planLock (standing : Standing) :
    Task.changes Standing.afterCall standing (invocation.planLock actions) =
      { standing with
        conversation :=
          if actions.unlock && invocation.target.locked then ⟨false, .null⟩
          else if actions.lock && !invocation.target.locked then
            ⟨true, sentReason actions.lockReason⟩
          else standing.conversation } := by
  have given := Call.reasonGiven_lock invocation.target.number (sentReason_told actions.lockReason)
  simp only [planLock, Task.changes_append, Task.changes_planIf]
  cases actions.unlock && invocation.target.locked <;>
    cases actions.lock && !invocation.target.locked <;>
      simp [Standing.afterCall, Conversation.afterCall, given]

theorem changes_plan
    (unfailing : ∀ fault, invocation.commentText? actions ≠ some (.error fault)) :
    Task.changes Standing.afterCall invocation.target.standing (invocation.plan actions) =
      invocation.settled actions := by
  rw [plan, Task.changes_append, changes_eq_of_still _ still_planPins, Task.changes_append,
    changes_planComment _ _ unfailing, Task.changes_append, changes_planState,
    Task.changes_append, changes_planLock, changes_eq_of_still _ still_planRest]
  rfl

/-- A plan for a consistent action set leaves nothing to change. -/
theorem isSettled_settled (consistent : actions.IsConsistent) :
    (invocation.settled actions).IsSettled actions where
  reopened reopen := by
    simp only [settled, reopen, consistent.state reopen, Target.isClosed, Bool.false_and,
      Bool.false_eq_true, if_false, Bool.true_and]
    cases closed : invocation.target.state.isText "closed" with
    | false => exact closed
    | true => rfl
  closed close := by
    have opens : actions.reopen = false := by
      cases reopen : actions.reopen with
      | false => rfl
      | true => exact absurd close (by simp [consistent.state reopen])
    simp only [settled, close, opens, Target.isOpen, Bool.false_and, Bool.true_and,
      Bool.false_eq_true, if_false]
    cases opened : invocation.target.state.isText "open" with
    | false => exact opened
    | true => rfl
  locked lock := by
    simp only [settled, lock, consistent.lock lock, Bool.false_and, Bool.true_and,
      Bool.false_eq_true, if_false]
    cases locked : invocation.target.locked with
    | false => rfl
    | true =>
        simp only [Bool.not_true, Bool.false_eq_true, if_false]
        split
        · rfl
        · exact locked
  unlocked unlock := by
    have unlocks : actions.lock = false := by
      cases lock : actions.lock with
      | false => rfl
      | true => exact absurd unlock (by simp [consistent.lock lock])
    simp only [settled, unlock, unlocks, Bool.false_and, Bool.true_and, Bool.false_eq_true,
      if_false]
    cases locked : invocation.target.locked with
    | false =>
        simp only [Bool.false_eq_true, if_false, and_false]
        exact locked
    | true => rfl
  told commented := by
    simp only [settled]
    split
    · nofun
    · split
      · exact fun _ => sentReason_told _
      · split
        · exact fun _ => Call.reasonGiven_told _ _
        · rename_i unlocked
          exact fun locked => absurd ⟨commented, locked⟩ unlocked

/-- In a settled standing nothing is done about the state and the lock. -/
theorem unwanted_of_isSettled (settled : invocation.target.standing.IsSettled actions) :
    invocation.planState actions = [] ∧ invocation.planLock actions = [] := by
  have opened : (actions.reopen && invocation.target.isClosed) = false := by
    cases wanted : actions.reopen with
    | false => rfl
    | true => exact settled.reopened wanted
  have closed : (actions.close && invocation.target.isOpen) = false := by
    cases wanted : actions.close with
    | false => rfl
    | true => exact settled.closed wanted
  have locked : (actions.lock && !invocation.target.locked) = false := by
    cases wanted : actions.lock with
    | false => rfl
    | true =>
        have held : invocation.target.locked = true := settled.locked wanted
        rw [held]
        rfl
  have unlocked : (actions.unlock && invocation.target.locked) = false := by
    cases wanted : actions.unlock with
    | false => rfl
    | true => exact settled.unlocked wanted
  simp only [planState, planLock, opened, closed, locked, unlocked]
  exact ⟨rfl, rfl⟩

/-- In a settled standing the plan leads back to it. -/
theorem changes_plan_of_isSettled
    (unfailing : ∀ fault, invocation.commentText? actions ≠ some (.error fault))
    (settled : invocation.target.standing.IsSettled actions) :
    Task.changes Standing.afterCall invocation.target.standing (invocation.plan actions) =
      invocation.target.standing := by
  obtain ⟨noState, noLock⟩ := invocation.unwanted_of_isSettled actions settled
  rw [plan, noState, noLock, List.nil_append, List.nil_append, Task.changes_append,
    changes_eq_of_still _ still_planPins, Task.changes_append,
    changes_planComment _ _ unfailing, changes_eq_of_still _ still_planRest]
  -- Only the comment is left. The reason that it restores is the one that was there.
  split
  · rename_i remade
    obtain ⟨commented, locked⟩ := remade
    have told : invocation.target.lockReason = .null ∨
        invocation.target.lockReason.truthy = true := settled.told commented locked
    rw [relocked, Call.reasonGiven_lock _ told, Target.standing, Target.conversation, locked]
  · rfl

end Planning

/-! ## What a run sends -/

variable {client : Client} {server : Server} {earlier : List Request}

section Executing

variable {comment newest : Value} {steps : List Step}

/-- Remarks for which a target is unlocked and locked again keep the standing. -/
theorem keepsStanding_planRemarks {text : String} {reactions : List String}
    (locked : invocation.target.locked = true)
    (executed : Task.execute client server earlier comment
        ([⟨.ask (.unlock invocation.target.number), none⟩] ++
          invocation.planRemarks text reactions ++
          [⟨.ask (.lock invocation.target.number invocation.target.lockReason), none⟩]) =
      (.ok newest, steps)) :
    invocation.target.KeepsStanding ((requestsSent steps).map Request.call) := by
  obtain ⟨_, _, locking, opened, relocked, rfl⟩ := Task.of_execute_append_ok executed
  obtain ⟨_, unlocking, _, unlocked, remarked, rfl⟩ := Task.of_execute_append_ok opened
  have split : invocation.planRemarks text reactions =
      [⟨.ask (.createComment invocation.target.number text), some .comment⟩] ++
        reactions.flatMap planReaction := rfl
  rw [split] at remarked
  obtain ⟨_, creating, reacting, created, reacted, rfl⟩ := Task.of_execute_append_ok remarked
  have only : ∀ call ∈ (requestsSent reacting).map Request.call,
      ∃ comment name, call = .addReaction comment name :=
    (eachCall_planReactions _ fun comment name => ⟨comment, name, rfl⟩).calls reacted
  have around : invocation.target.KeepsStanding ([] ++ _ ++ []) :=
    .around text locked nofun only nofun
  simpa only [requestsSent_append, List.map_append, calls_of_execute_ask unlocked,
    calls_of_execute_ask created, calls_of_execute_ask relocked, List.nil_append,
    List.append_nil, List.append_assoc, List.singleton_append, List.cons_append] using around

/-- A comment keeps the standing. -/
theorem keepsStanding_planComment
    (executed : Task.execute client server earlier comment (invocation.planComment actions) =
      (.ok newest, steps)) :
    invocation.target.KeepsStanding ((requestsSent steps).map Request.call) := by
  rw [planComment] at executed
  cases commented : invocation.commentText? actions with
  | none =>
      rw [commented] at executed
      exact .still (eachCall_nil.calls executed)
  | some rendered =>
      rw [commented] at executed
      cases rendered with
      | error fault => cases executed
      | ok text =>
          cases locked : invocation.target.locked with
          | false =>
              simp only [locked, Bool.false_eq_true, if_false] at executed
              exact .still ((still_planRemarks text actions.reactions).calls executed)
          | true =>
              simp only [locked, if_true] at executed
              exact keepsStanding_planRemarks locked executed

/-- In a settled standing a plan that is executed to the end keeps it. -/
theorem keepsStanding_plan (settled : invocation.target.standing.IsSettled actions)
    (executed : Task.execute client server earlier comment (invocation.plan actions) =
      (.ok newest, steps)) :
    invocation.target.KeepsStanding ((requestsSent steps).map Request.call) := by
  obtain ⟨noState, noLock⟩ := invocation.unwanted_of_isSettled actions settled
  rw [plan, noState, noLock, List.nil_append, List.nil_append] at executed
  obtain ⟨_, pinning, others, pinned, followed, rfl⟩ := Task.of_execute_append_ok executed
  obtain ⟨_, commenting, rest, commented, done, rfl⟩ := Task.of_execute_append_ok followed
  rw [requestsSent_append, requestsSent_append, List.map_append, List.map_append]
  exact ((keepsStanding_planComment commented).before (still_planRest.calls done)).behind
    (still_planPins.calls pinned)

/-- A plan that is executed to the end has a comment that can be rendered. -/
theorem unfailing_of_execute
    (executed : Task.execute client server earlier comment (invocation.plan actions) =
      (.ok newest, steps)) :
    ∀ fault, invocation.commentText? actions ≠ some (.error fault) := by
  intro fault failed
  obtain ⟨_, _, _, -, followed, -⟩ := Task.of_execute_append_ok executed
  obtain ⟨_, _, _, halted, -, -⟩ := Task.of_execute_append_ok followed
  rw [planComment, failed] at halted
  cases halted

end Executing

/-- A run that ends well leaves the standing that its plan leads to. -/
theorem after_apply (ended : ((invocation.apply client actions).run server earlier).1 = .ok ()) :
    invocation.target.standing.after ((invocation.apply client actions).run server earlier).2 =
      Task.changes Standing.afterCall invocation.target.standing (invocation.plan actions) :=
  (invocation.follows_plan actions).track_run (fun _ _ _ => rfl) ended

theorem unfailing_of_ended
    (ended : ((invocation.apply client actions).run server earlier).1 = .ok ()) :
    ∀ fault, invocation.commentText? actions ≠ some (.error fault) := by
  obtain ⟨newest, executed⟩ := (invocation.follows_plan actions).exists_executed ended .null
  exact unfailing_of_execute executed

end Invocation

/-- What the action set asks for about state and lock is reached with one run that ends well. A
second run on a target with the standing that the first has left keeps this standing, whatever
became of the rest of the target. -/
theorem Invocation.apply_converges (first second : Invocation) (actions : ActionSet)
    (client : Client) (server again : Server) (earlier since : List Request)
    (consistent : actions.IsConsistent)
    (ended : ((first.apply client actions).run server earlier).1 = .ok ())
    (refetched : second.target.standing =
      first.target.standing.after ((first.apply client actions).run server earlier).2)
    (repeated : ((second.apply client actions).run again since).1 = .ok ()) :
    second.target.KeepsStanding
        ((requestsSent ((second.apply client actions).run again since).2).map Request.call) ∧
      second.target.standing.after ((second.apply client actions).run again since).2 =
        second.target.standing := by
  have settled : second.target.standing.IsSettled actions := by
    rw [refetched, after_apply ended, first.changes_plan actions (unfailing_of_ended ended)]
    exact first.isSettled_settled actions consistent
  constructor
  · obtain ⟨newest, executed⟩ := (second.follows_plan actions).exists_executed repeated .null
    rw [← requestsSent_unsaid]
    exact keepsStanding_plan settled executed
  · rw [after_apply repeated]
    exact second.changes_plan_of_isSettled actions (unfailing_of_ended repeated) settled

/-- An action set that closes and locks an issue with a comment. -/
def parting : ActionSet := { comments := ["Bye"], close := true, lock := true }

/-- The issue after it was closed. -/
def parted : Invocation :=
  { greeting with target := { greeting.target with state := .str "closed" } }

/-- The second run does nothing but comment. -/
theorem Invocation.apply_converges_parting :
    parting.IsConsistent ∧
      ((greeting.apply sampleClient parting).run acceptAll []).1 = .ok () ∧
      parted.target.standing =
        greeting.target.standing.after ((greeting.apply sampleClient parting).run acceptAll []).2 ∧
      ((parted.apply sampleClient parting).run acceptAll []).1 = .ok () ∧
      parted.target.KeepsStanding
        ((requestsSent ((parted.apply sampleClient parting).run acceptAll []).2).map
          Request.call) ∧
      parted.target.standing.after ((parted.apply sampleClient parting).run acceptAll []).2 =
        parted.target.standing ∧
      (requestsSent ((greeting.apply sampleClient parting).run acceptAll []).2).map
        Request.method = [.delete, .post, .put, .patch] ∧
      (requestsSent ((parted.apply sampleClient parting).run acceptAll []).2).map
        Request.method = [.delete, .post, .put] := by
  have consistent : parting.IsConsistent := ⟨nofun, fun _ => rfl⟩
  have ended : ((greeting.apply sampleClient parting).run acceptAll []).1 = .ok () := by
    decide +kernel
  have repeated : ((parted.apply sampleClient parting).run acceptAll []).1 = .ok () := by
    decide +kernel
  have refetched : parted.target.standing =
      greeting.target.standing.after
        ((greeting.apply sampleClient parting).run acceptAll []).2 := by
    rw [after_apply ended, greeting.changes_plan parting (unfailing_of_ended ended)]
    rfl
  have converged := greeting.apply_converges parted parting sampleClient acceptAll acceptAll [] []
    consistent ended refetched repeated
  exact ⟨consistent, ended, refetched, repeated, converged.1, converged.2, by decide +kernel,
    by decide +kernel⟩

end SlashBot

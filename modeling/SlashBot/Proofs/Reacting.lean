import SlashBot.Proofs.Convergence

/-!
# Reacting to a comment

A run that goes through its comment sends one reaction for every name of its action set that is the
name of a reaction, all to the comment it has made. Nothing else sends reactions, so this does not
depend on what becomes of the rest of the plan.
-/

namespace SlashBot

open SlashBot.Template

/-- The call adds a reaction to a comment. -/
def Call.isReaction (call : Call) : Bool :=
  match call with
  | addReaction .. => true
  | _ => false

/-- The reactions among the calls that some steps send. -/
def reactionsSent (steps : List Step) : List Call :=
  ((requestsSent steps).map Request.call).filter Call.isReaction

@[simp] theorem reactionsSent_append (steps more : List Step) :
    reactionsSent (steps ++ more) = reactionsSent steps ++ reactionsSent more := by
  simp [reactionsSent]

@[simp] theorem reactionsSent_unsaid (steps : List Step) :
    reactionsSent (unsaid steps) = reactionsSent steps := by
  rw [reactionsSent, requestsSent_unsaid, reactionsSent]

section Executing

variable {client : Client} {server : Server} {earlier : List Request} {comment newest id : Value}
  {steps : List Step} {tasks : List Task}

theorem reactionsSent_eq_nil {outcome : Except Fault Value}
    (unreacting : EachCall (fun call => call.isReaction = false) tasks)
    (executed : Task.execute client server earlier comment tasks = (outcome, steps)) :
    reactionsSent steps = [] := by
  rw [reactionsSent, List.filter_eq_nil_iff]
  intro call sent
  simp [unreacting.calls executed call sent]

theorem reactionsSent_ask {call : Call} {effect : Option Effect} (other : call.isReaction = false)
    (executed : Task.execute client server earlier comment [⟨.ask call, effect⟩] =
      (.ok newest, steps)) : reactionsSent steps = [] := by
  rw [reactionsSent, calls_of_execute_ask executed, List.filter_cons_of_neg (by simp [other]),
    List.filter_nil]

/-! ## What is sent -/

/-- A reaction that is added is sent as a call of its own. -/
theorem reactionsSent_planReaction {name : String}
    (executed : Task.execute client server earlier id (Invocation.planReaction name) =
      (.ok newest, steps)) :
    reactionsSent steps = ([name].filter reactionNames.contains).map (.addReaction id) := by
  rw [Invocation.planReaction] at executed
  split at executed
  · rename_i present
    have asked : Task.execute client server earlier id
        [⟨.ask (.addReaction id name), some (.reaction name)⟩] = (.ok newest, steps) := executed
    rw [reactionsSent, calls_of_execute_ask asked, List.filter_cons_of_pos present]
    rfl
  · rename_i absent
    rw [List.filter_cons_of_neg absent]
    exact reactionsSent_eq_nil eachCall_nil executed

theorem reactionsSent_planReactions {names : List String}
    (executed : Task.execute client server earlier id (names.flatMap Invocation.planReaction) =
      (.ok newest, steps)) :
    reactionsSent steps = (names.filter reactionNames.contains).map (.addReaction id) := by
  induction names generalizing earlier steps with
  | nil => exact reactionsSent_eq_nil eachCall_nil executed
  | cons name names ih =>
      rw [List.flatMap_cons] at executed
      obtain ⟨middle, first, second, reacted, others, rfl⟩ := Task.of_execute_append_ok executed
      -- the next reaction is to the same comment
      obtain rfl := execute_planReaction reacted
      rw [reactionsSent_append, reactionsSent_planReaction reacted, ih others, ← List.map_append,
        ← List.filter_append, List.singleton_append]

namespace Invocation

variable {invocation : Invocation} {actions : ActionSet}

theorem reactionsSent_planRemarks {text : String} {names : List String}
    (executed : Task.execute client server earlier comment (invocation.planRemarks text names) =
      (.ok newest, steps)) :
    ∃ id, reactionsSent steps = (names.filter reactionNames.contains).map (.addReaction id) := by
  have split : invocation.planRemarks text names =
      [⟨.ask (.createComment invocation.target.number text), some .comment⟩] ++
        names.flatMap planReaction := rfl
  rw [split] at executed
  obtain ⟨id, creating, reacting, created, reacted, rfl⟩ := Task.of_execute_append_ok executed
  refine ⟨id, ?_⟩
  rw [reactionsSent_append, reactionsSent_ask rfl created, List.nil_append]
  exact reactionsSent_planReactions reacted

/-- Unlocking the target for a comment, and locking it again, adds no reactions. -/
theorem reactionsSent_planComment (commented : actions.comments ≠ [])
    (executed : Task.execute client server earlier comment (invocation.planComment actions) =
      (.ok newest, steps)) :
    ∃ id, reactionsSent steps =
      (actions.reactions.filter reactionNames.contains).map (.addReaction id) := by
  rw [planComment] at executed
  cases rendered : invocation.commentText? actions with
  | none => exact absurd ((invocation.commentText?_eq_none_iff actions).mp rendered) commented
  | some outcome =>
      rw [rendered] at executed
      cases outcome with
      | error fault => cases executed
      | ok text =>
          cases locked : invocation.target.locked with
          | false =>
              simp only [locked, Bool.false_eq_true, if_false] at executed
              exact reactionsSent_planRemarks executed
          | true =>
              simp only [locked, if_true] at executed
              obtain ⟨_, _, locking, opened, relocked, rfl⟩ := Task.of_execute_append_ok executed
              obtain ⟨_, unlocking, _, unlocked, remarked, rfl⟩ := Task.of_execute_append_ok opened
              rw [reactionsSent_append, reactionsSent_append, reactionsSent_ask rfl unlocked,
                reactionsSent_ask rfl relocked, List.nil_append, List.append_nil]
              exact reactionsSent_planRemarks remarked

variable (invocation actions)

/-- What a plan does up to the comment with its reactions. -/
def planFront : List Task :=
  invocation.planPins actions ++ invocation.planComment actions

/-- What a plan does after the comment with its reactions. -/
def planBack : List Task :=
  invocation.planState actions ++ (invocation.planLock actions ++
    (invocation.planLabels actions ++ (invocation.planPeople actions ++
      invocation.planDispatch actions)))

theorem plan_eq_append :
    invocation.plan actions = invocation.planFront actions ++ invocation.planBack actions :=
  (List.append_assoc ..).symm

theorem unreacting_planBack :
    EachCall (fun call => call.isReaction = false) (invocation.planBack actions) :=
  (invocation.eachCall_planState actions fun _ _ => rfl).append <|
  (invocation.eachCall_planLock actions (fun _ _ => rfl) fun _ => rfl).append <|
  (invocation.eachCall_planLabels actions (fun _ _ => rfl) fun _ _ => rfl).append <|
  (invocation.eachCall_planPeople actions (fun _ _ => rfl) fun _ _ => rfl).append <|
  invocation.eachCall_planDispatch actions fun _ _ => rfl

variable {invocation actions}

/-- What becomes of the rest of a plan does not matter for the reactions. -/
theorem reactionsSent_plan (commented : actions.comments ≠ [])
    (executed : Task.execute client server earlier comment (invocation.planFront actions) =
      (.ok newest, steps)) :
    ∃ id, reactionsSent
        (Task.execute client server earlier comment (invocation.plan actions)).2 =
      (actions.reactions.filter reactionNames.contains).map (.addReaction id) := by
  have rest : reactionsSent (Task.execute client server (earlier ++ requestsSent steps) newest
      (invocation.planBack actions)).2 = [] :=
    reactionsSent_eq_nil (invocation.unreacting_planBack actions) rfl
  rw [plan_eq_append, Task.execute_append, executed, Run.andThen_ok, reactionsSent_append, rest,
    List.append_nil]
  rw [planFront] at executed
  obtain ⟨_, pinning, others, pinned, remarked, rfl⟩ := Task.of_execute_append_ok executed
  have unreacting : EachCall (fun call => call.isReaction = false)
      (invocation.planPins actions) :=
    invocation.eachCall_planPins actions (fun _ => rfl) fun _ => rfl
  rw [reactionsSent_append, reactionsSent_eq_nil unreacting pinned, List.nil_append]
  exact reactionsSent_planComment commented remarked

end Invocation

end Executing

/-! ## Calls that are answered -/

/-- The service answers a call with what the call needs, whatever was sent before. The ids that it
gives to new comments are among some ids. -/
def Client.Answers (client : Client) (server : Server) (ids : Value → Prop) (call : Call) : Prop :=
  ∀ earlier comment, ids comment → ∃ octets newest,
    (client.ask server earlier call).1 = .ok octets ∧ call.newest comment octets = .ok newest ∧
      ids newest

/-- The service answers every call of a piece of work, as long as reactions are to a comment with
one of the ids. -/
def Work.IsAnswered (client : Client) (server : Server) (ids : Value → Prop) : (work : Work) → Prop
  | ask call => client.Answers server ids call
  | react name => ∀ comment, ids comment → client.Answers server ids (.addReaction comment name)
  | removeEach number names => ∀ name ∈ names, client.Answers server ids (.removeLabel number name)
  | halt _ => True

/-- The service answers every call of some tasks. -/
def Task.AreAnswered (client : Client) (server : Server) (ids : Value → Prop)
    (tasks : List Task) : Prop :=
  ∀ task ∈ tasks, task.work.IsAnswered client server ids

section Answered

variable {client : Client} {server : Server} {ids : Value → Prop} {earlier : List Request}
  {comment : Value}

theorem Client.Answers.exists_perform {call : Call} (answers : client.Answers server ids call)
    (given : ids comment) :
    ∃ newest, (Work.perform client server earlier comment (.ask call)).1 = .ok newest ∧
      ids newest := by
  obtain ⟨octets, newest, asked, made, among⟩ := answers earlier comment given
  refine ⟨newest, ?_, among⟩
  rw [Work.perform]
  rcases ran : client.ask server earlier call with ⟨outcome, steps⟩
  rw [ran] at asked
  obtain rfl : outcome = .ok octets := asked
  exact made

theorem firstFault?_eq_none {number : Value} {names : List String}
    (answered : ∀ name ∈ names, client.Answers server ids (.removeLabel number name))
    (given : ids comment) : firstFault? (askEach client server number earlier names).1 = none := by
  induction names generalizing earlier with
  | nil => rfl
  | cons name names ih =>
      obtain ⟨octets, _, asked, -, -⟩ := answered name (by simp) earlier comment given
      rw [askEach, asked]
      exact ih fun other member => answered other (by simp [member])

/-- A piece of work that is answered is done, unless it is a fault itself. -/
theorem Work.IsAnswered.exists_perform {work : Work}
    (answered : work.IsAnswered client server ids) (goes : work.halts = false)
    (given : ids comment) :
    ∃ newest, (work.perform client server earlier comment).1 = .ok newest ∧ ids newest := by
  cases work with
  | ask call => exact Client.Answers.exists_perform answered given
  | react name => exact (answered comment given).exists_perform given
  | removeEach number names =>
      refine ⟨comment, ?_, given⟩
      simp only [Work.perform, firstFault?_eq_none answered given]
  | halt fault => cases goes

/-- Tasks that are answered are executed to the end if none of them is a fault. -/
theorem Task.AreAnswered.exists_execute {tasks : List Task}
    (answered : AreAnswered client server ids tasks) (goes : GoesThrough tasks)
    (given : ids comment) :
    ∃ newest, (execute client server earlier comment tasks).1 = .ok newest ∧ ids newest := by
  induction tasks generalizing earlier comment with
  | nil => exact ⟨comment, rfl, given⟩
  | cons task tasks ih =>
      have first : ∃ middle, (task.work.perform client server earlier comment).1 = .ok middle ∧
          ids middle := (answered task (by simp)).exists_perform (goes task (by simp)) given
      obtain ⟨middle, performed, between⟩ := first
      rw [execute, perform]
      rcases ran : task.work.perform client server earlier comment with ⟨outcome, steps⟩
      rw [ran] at performed
      obtain rfl : outcome = .ok middle := performed
      exact ih (fun other member => answered other (by simp [member]))
        (fun other member => goes other (by simp [member])) between

end Answered

/-! ## Runs -/

namespace Invocation

variable {invocation : Invocation} {actions : ActionSet} {client : Client} {server : Server}
  {earlier : List Request}

/-- A run sends the reactions that its plan sends. -/
theorem reactionsSent_apply (comment : Value) :
    reactionsSent ((invocation.apply client actions).run server earlier).2 =
      reactionsSent (Task.execute client server earlier comment (invocation.plan actions)).2 := by
  rcases Prod.mk.inj (invocation.follows_plan actions comment server earlier) with ⟨-, sameSteps⟩
  rw [← reactionsSent_unsaid, sameSteps]

/-- A run that ends well reacts to its comment. -/
theorem reacts_of_ended (commented : actions.comments ≠ [])
    (ended : ((invocation.apply client actions).run server earlier).1 = .ok ()) :
    ∃ id, reactionsSent ((invocation.apply client actions).run server earlier).2 =
      (actions.reactions.filter reactionNames.contains).map (.addReaction id) := by
  obtain ⟨newest, executed⟩ := (invocation.follows_plan actions).exists_executed ended .null
  rw [plan_eq_append] at executed
  obtain ⟨middle, first, second, remarked, -, -⟩ := Task.of_execute_append_ok executed
  rw [reactionsSent_apply .null]
  exact reactionsSent_plan commented remarked

/-- A run whose calls are answered reacts to its comment if the comment can be made from its
template, whatever becomes of the rest. -/
theorem reacts_of_answered {ids : Value → Prop} {id : Value} (commented : actions.comments ≠ [])
    (renders : ∀ template ∈ actions.comments,
      ∃ text, render template invocation.commentContext = .ok text)
    (given : ids id) (answered : Task.AreAnswered client server ids (invocation.plan actions)) :
    ∃ id, reactionsSent ((invocation.apply client actions).run server earlier).2 =
      (actions.reactions.filter reactionNames.contains).map (.addReaction id) := by
  -- the comment and its reactions are planned without a look at labels and people
  have remarked : GoesThrough (invocation.planComment actions) :=
    invocation.goesThrough_planComment { actions with labels := [], assign := [] }
      ⟨renders, nofun, nofun⟩
  have goes : GoesThrough (invocation.planFront actions) :=
    ((goesThrough_planIf _ _ _).append (goesThrough_planIf _ _ _)).append remarked
  have front : Task.AreAnswered client server ids (invocation.planFront actions) := by
    intro task member
    refine answered task ?_
    rw [plan_eq_append]
    exact List.mem_append_left _ member
  have finished : ∃ newest, (Task.execute client server earlier id
      (invocation.planFront actions)).1 = .ok newest ∧ ids newest :=
    front.exists_execute goes given
  obtain ⟨newest, executed, -⟩ := finished
  rw [reactionsSent_apply id]
  exact reactionsSent_plan commented (Prod.ext executed rfl)

end Invocation

end SlashBot

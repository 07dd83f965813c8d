import SlashBot.Proofs.Plan

/-!
# Following a plan

Applying an action set is executing its plan, apart from the lines that are said on the
way. Each part of the work follows its part of the plan, and two parts in sequence follow
both of theirs.
-/

namespace SlashBot

open SlashBot.Template

/-- Running a job is executing some tasks, apart from what it says. The id of the newest
comment is that of a comment before. -/
def FollowsAfter (client : Client) (comment : Value) (job : Job Unit) (tasks : List Task) : Prop :=
  ∀ server earlier,
    ((job.run server earlier).1, unsaid (job.run server earlier).2) =
      (Task.execute client server earlier comment tasks).void

/-- Running a job is executing some tasks, whichever comments there were before. -/
def Follows (client : Client) (job : Job Unit) (tasks : List Task) : Prop :=
  ∀ comment, FollowsAfter client comment job tasks

variable {client : Client} {comment : Value} {job next : Job Unit} {tasks more : List Task}

/-- One job after another follows the tasks of both. The second one may rely on the
comment that the first one leaves. -/
theorem FollowsAfter.bind (first : FollowsAfter client comment job tasks)
    (second : ∀ server earlier newest steps,
      Task.execute client server earlier comment tasks = (.ok newest, steps) →
        FollowsAfter client newest next more) :
    FollowsAfter client comment (job.bind fun _ => next) (tasks ++ more) := by
  intro server earlier
  have ran := first server earlier
  rw [Job.run_bind, Task.execute_append]
  revert ran
  rcases job.run server earlier with ⟨outcome, steps⟩
  rcases executed : Task.execute client server earlier comment tasks with ⟨_ | newest, done⟩
  · simp only [Run.void_error, Prod.mk.injEq]
    rintro ⟨rfl, rfl⟩
    rfl
  · simp only [Run.void_ok, Prod.mk.injEq]
    rintro ⟨rfl, rfl⟩
    -- The second job starts from the comment and the requests that the tasks have left.
    have continued := second server earlier newest _ executed server
      (earlier ++ requestsSent steps)
    rcases Prod.mk.inj continued with ⟨sameOutcome, sameSteps⟩
    simp [Run.void, sameOutcome, sameSteps]

theorem Follows.bind (first : Follows client job tasks) (second : Follows client next more) :
    Follows client (job.bind fun _ => next) (tasks ++ more) :=
  fun comment => (first comment).bind fun _ _ newest _ _ => second newest

/-- A job that ends well has executed all of the tasks that it follows. -/
theorem Follows.exists_executed {server : Server} {earlier : List Request}
    (follows : Follows client job tasks) (ended : (job.run server earlier).1 = .ok ())
    (comment : Value) :
    ∃ newest, Task.execute client server earlier comment tasks =
      (.ok newest, unsaid (job.run server earlier).2) := by
  rcases Prod.mk.inj (follows comment server earlier) with ⟨sameOutcome, sameSteps⟩
  rw [sameSteps]
  rcases executed : Task.execute client server earlier comment tasks with ⟨_ | newest, steps⟩
  · rw [executed, ended] at sameOutcome
    cases sameOutcome
  · exact ⟨newest, rfl⟩

theorem follows_nothing : Follows client (.done ()) [] :=
  fun _ _ _ => rfl

theorem follows_halt (fault : Fault) : Follows client (.fail fault) [⟨.halt fault, none⟩] :=
  fun _ _ _ => rfl

/-- Saying something is no task. -/
theorem follows_tell (entry : Entry) : Follows client (Job.tell entry) [] :=
  fun _ _ _ => rfl

/-- An effect that is recorded after some work belongs to its task. -/
theorem FollowsAfter.apply {work : Work} (effect : Effect)
    (follows : FollowsAfter client comment job [⟨work, none⟩]) :
    FollowsAfter client comment (job.bind fun _ => Job.apply effect) [⟨work, some effect⟩] := by
  intro server earlier
  have ran := follows server earlier
  rw [Job.run_bind]
  rw [Task.execute_singleton, Task.perform] at ran ⊢
  revert ran
  rcases job.run server earlier with ⟨outcome, steps⟩
  rcases work.perform client server earlier comment with ⟨_ | newest, done⟩
  · simp
    rintro rfl rfl
    simp
  · simp
    rintro rfl rfl
    simp

theorem follows_order (call : Call)
    (silent : ∀ comment octets, call.newest comment octets = .ok comment) :
    Follows client (client.order call) [⟨.ask call, none⟩] := by
  intro comment server earlier
  simp only [Client.run_order, Task.execute_singleton, Task.perform, Work.perform, silent]
  rcases client.ask_cases server earlier call with ⟨fault, asked⟩ | ⟨request, -, -, asked⟩
  · rw [asked]
    rfl
  · rw [asked]
    cases Client.outcomeOf call (server earlier request) <;> rfl

theorem follows_query (call : Call)
    (checked : ∀ comment octets,
      call.newest comment octets = (Client.checkQuery octets).map fun _ => comment) :
    Follows client (client.query call) [⟨.ask call, none⟩] := by
  intro comment server earlier
  simp only [Client.run_query, Task.execute_singleton, Task.perform, Work.perform, checked]
  rcases client.ask_cases server earlier call with ⟨fault, asked⟩ | ⟨request, -, -, asked⟩
  · rw [asked]
    rfl
  · rw [asked]
    cases Client.outcomeOf call (server earlier request) with
    | error fault => rfl
    | ok octets =>
        simp only [Run.andThen_ok]
        cases Client.checkQuery octets <;> rfl

theorem follows_bring {work : Work} (effect : Effect) (wanted : Bool) (icon message : String)
    (follows : wanted = true → Follows client job [⟨work, none⟩]) :
    Follows client (Invocation.bring effect wanted icon message job)
      (if wanted then [⟨work, some effect⟩] else []) := by
  cases wanted with
  | false => exact follows_nothing
  | true => exact (follows_tell _).bind fun comment => (follows rfl comment).apply effect

/-- Attempting every removal sends them all and always ends well. -/
theorem run_removals (number : Value) (server : Server) (earlier : List Request)
    (names : List String) :
    (names.mapM fun name => (client.order (.removeLabel number name)).attempt).run server earlier =
      (.ok ((askEach client server number earlier names).1.map fun outcome =>
          outcome.map fun _ => ()),
        (askEach client server number earlier names).2) := by
  induction names generalizing earlier with
  | nil => rfl
  | cons name names ih =>
      simp only [List.mapM_cons, Job.bind_eq, Job.pure_eq, Job.run_bind, Job.run_attempt,
        Client.run_order, askEach]
      rcases client.ask server earlier (.removeLabel number name) with ⟨_ | octets, steps⟩
      · simp [ih, Except.map]
      · simp [ih, Except.map]

/-- Failing with every outcome in turn is failing with the first fault among them. -/
theorem run_forM_ofExcept (outcomes : List (Except Fault Unit)) (server : Server)
    (earlier : List Request) :
    (outcomes.forM Job.ofExcept).run server earlier =
      (match firstFault? outcomes with
        | some fault => .error fault
        | none => .ok (), []) := by
  induction outcomes with
  | nil => rfl
  | cons outcome outcomes ih =>
      cases outcome with
      | error fault => rfl
      | ok result => exact ih

theorem firstFault?_map {α β : Type} (image : α → β) (outcomes : List (Except Fault α)) :
    firstFault? (outcomes.map fun outcome => outcome.map image) = firstFault? outcomes := by
  induction outcomes with
  | nil => rfl
  | cons outcome outcomes ih =>
      cases outcome with
      | error fault => rfl
      | ok result => exact ih

theorem unsaid_askEach (server : Server) (number : Value) (earlier : List Request)
    (names : List String) :
    unsaid (askEach client server number earlier names).2 =
      (askEach client server number earlier names).2 := by
  induction names generalizing earlier with
  | nil => rfl
  | cons name names ih =>
      simp only [askEach, unsaid_append, ih]
      rcases client.ask_cases server earlier (.removeLabel number name) with
        ⟨fault, asked⟩ | ⟨request, -, -, asked⟩ <;> rw [asked] <;> rfl

/-! Asking records no effect. -/

theorem effectsRecorded_ask {server : Server} {earlier : List Request} {call : Call} :
    effectsRecorded (client.ask server earlier call).2 = [] := by
  rcases client.ask_cases server earlier call with ⟨fault, asked⟩ | ⟨request, -, -, asked⟩
  · rw [asked]
    rfl
  · rw [asked]
    rfl

theorem effectsRecorded_askEach {server : Server} {earlier : List Request} (number : Value)
    (names : List String) :
    effectsRecorded (askEach client server number earlier names).2 = [] := by
  induction names generalizing earlier with
  | nil => rfl
  | cons name names ih => rw [askEach, effectsRecorded_append, effectsRecorded_ask, ih,
      List.append_nil]

theorem follows_removeEach (invocation : Invocation) (names : List String) :
    Follows client (invocation.removeEach client names)
      [⟨.removeEach invocation.target.number names, none⟩] := by
  intro comment server earlier
  simp only [Invocation.removeEach, Job.bind_eq, Job.run_bind, run_removals, Run.andThen_ok,
    run_forM_ofExcept, firstFault?_map, unsaid_append, unsaid_askEach,
    Task.execute_singleton, Task.perform, Work.perform]
  cases firstFault? (askEach client server invocation.target.number earlier names).1 <;> simp

theorem follows_react (id : Value) (name : String) :
    FollowsAfter client id (Invocation.react client id name) (Invocation.planReaction name) := by
  rw [Invocation.react, Invocation.planReaction]
  by_cases present : reactionNames.contains name = true
  · simp only [present, if_true]
    apply FollowsAfter.apply
    have ordered : Follows client (client.order (.addReaction id name)) _ :=
      follows_order _ fun _ _ => rfl
    intro server earlier
    have ran := ordered id server earlier
    simp only [Task.execute_singleton, Task.perform, Work.perform] at ran ⊢
    exact ran
  · simp only [present]
    exact follows_tell _ id

/-- Reactions leave the newest comment as it is. -/
theorem execute_planReaction {server : Server} {earlier : List Request} {id newest : Value}
    {name : String} {steps : List Step}
    (executed : Task.execute client server earlier id (Invocation.planReaction name) =
      (.ok newest, steps)) : newest = id := by
  rw [Invocation.planReaction] at executed
  split at executed
  · simp only [Task.execute_singleton, Task.perform, Work.perform] at executed
    revert executed
    rcases client.ask server earlier (.addReaction id name) with ⟨_ | octets, asked⟩
    · simp
    · simp only [Run.andThen_ok, Prod.mk.injEq, Except.ok.injEq]
      intro executed
      exact executed.1.symm
  · simp only [Task.execute, Prod.mk.injEq, Except.ok.injEq] at executed
    exact executed.1.symm

theorem follows_reactions (id : Value) (names : List String) :
    FollowsAfter client id (names.forM (Invocation.react client id))
      (names.flatMap Invocation.planReaction) := by
  induction names with
  | nil => exact follows_nothing id
  | cons name names ih =>
      refine (follows_react id name).bind ?_
      intro server earlier newest steps executed
      rw [execute_planReaction executed]
      exact ih

theorem follows_comment (invocation : Invocation) (text : String) (reactions : List String) :
    Follows client (invocation.comment client text reactions)
      (invocation.planRemarks text reactions) := by
  intro comment server earlier
  simp only [Invocation.comment, Invocation.planRemarks, Job.bind_eq, Job.run_bind,
    Client.run_createComment, Task.execute, Task.perform, Work.perform, Call.newest]
  rcases client.ask_cases server earlier (.createComment invocation.target.number text) with
    ⟨fault, asked⟩ | ⟨request, -, -, asked⟩
  · rw [asked]
    rfl
  · rw [asked]
    cases Client.outcomeOf _ (server earlier request) with
    | error fault => rfl
    | ok octets =>
        simp only [Run.andThen_ok]
        cases (Json.ofOctets octets).bind (Value.member "id") with
        | error fault => rfl
        | ok id =>
            have reacted : FollowsAfter client id _ _ := follows_reactions id reactions
            rcases Prod.mk.inj (reacted server (earlier ++ [request])) with ⟨sameOutcome, sameSteps⟩
            simpa [Run.void] using And.intro sameOutcome sameSteps

theorem follows_whileUnlocked (invocation : Invocation)
    (follows : Follows client job tasks) :
    Follows client (invocation.whileUnlocked client job)
      (if invocation.target.locked then
        [⟨.ask (.unlock invocation.target.number), none⟩] ++ tasks ++
          [⟨.ask (.lock invocation.target.number invocation.target.lockReason), none⟩]
      else tasks) := by
  cases locked : invocation.target.locked with
  | false =>
      simp only [Invocation.whileUnlocked, locked, Bool.false_eq_true, if_false]
      exact follows
  | true =>
      simp only [Invocation.whileUnlocked, locked, if_true, List.append_assoc]
      have unlock : Follows client (client.order (.unlock invocation.target.number)) _ :=
        follows_order _ fun _ _ => rfl
      exact unlock.bind (follows.bind (follows_order _ fun _ _ => rfl))

theorem ActionSet.eq_of_isEmpty {actions : ActionSet} (empty : actions.isEmpty = true) :
    actions = {} := by
  simpa [isEmpty] using empty

namespace Invocation

variable (invocation : Invocation) (actions : ActionSet)

theorem follows_planPins :
    Follows client (invocation.applyPins client actions) (invocation.planPins actions) :=
  (follows_bring _ _ _ _ fun _ => follows_query _ fun _ _ => rfl).bind
    (follows_bring _ _ _ _ fun _ => follows_query _ fun _ _ => rfl)

theorem follows_planComment :
    Follows client (invocation.applyComment client actions) (invocation.planComment actions) := by
  rw [applyComment, planComment, commentText?]
  cases ActionSet.pickComment? invocation.draw actions.comments with
  | none => exact follows_nothing
  | some template =>
      simp only [Job.bind_eq, Job.lift_eq, Option.map_some]
      cases render template invocation.commentContext with
      | error fault => exact follows_halt fault
      | ok text =>
          exact (follows_tell _).bind
            (follows_whileUnlocked invocation (follows_comment invocation text actions.reactions))

theorem follows_planState :
    Follows client (invocation.applyState client actions) (invocation.planState actions) :=
  (follows_bring _ _ _ _ fun _ => follows_order _ fun _ _ => rfl).bind
    (follows_bring _ _ _ _ fun _ => follows_order _ fun _ _ => rfl)

theorem follows_planLock :
    Follows client (invocation.applyLock client actions) (invocation.planLock actions) :=
  (follows_bring _ _ _ _ fun _ => follows_order _ fun _ _ => rfl).bind
    (follows_bring _ _ _ _ fun _ => follows_order _ fun _ _ => rfl)

theorem follows_planRemoveLabels (values : List Value) :
    Follows client (invocation.removeLabels client values)
      (invocation.planRemoveLabels values) := by
  rw [removeLabels, planRemoveLabels]
  cases textsOf values with
  | error fault => exact follows_halt fault
  | ok names => exact follows_bring _ _ _ _ fun _ => follows_removeEach invocation _

theorem follows_planLabels :
    Follows client (invocation.applyLabels client actions) (invocation.planLabels actions) := by
  rw [applyLabels, planLabels]
  cases Changes.ofSpecifiers actions.labels invocation.arguments false with
  | error fault => exact follows_halt fault
  | ok changes =>
      exact (follows_bring _ _ _ _ fun _ => follows_order _ fun _ _ => rfl).bind
        (invocation.follows_planRemoveLabels _)

theorem follows_planUnassign (values : List Value) :
    Follows client (invocation.unassign client values) (invocation.planUnassign values) := by
  rw [unassign, planUnassign]
  cases textsOf values with
  | error fault => exact follows_halt fault
  | ok names => exact follows_bring _ _ _ _ fun _ => follows_order _ fun _ _ => rfl

theorem follows_planPeople :
    Follows client (invocation.applyPeople client actions) (invocation.planPeople actions) := by
  rw [applyPeople, planPeople]
  cases Changes.ofSpecifiers actions.assign invocation.arguments true with
  | error fault => exact follows_halt fault
  | ok changes =>
      exact (invocation.follows_planUnassign _).bind
        (follows_bring _ _ _ _ fun _ => follows_order _ fun _ _ => rfl)

theorem follows_planDispatch :
    Follows client (invocation.applyDispatch client actions) (invocation.planDispatch actions) :=
  follows_bring _ _ _ _ fun _ => follows_order _ fun _ _ => rfl

/-- An action set in which nothing is configured plans nothing. -/
theorem plan_of_isEmpty (empty : actions.isEmpty = true) : invocation.plan actions = [] := by
  rw [ActionSet.eq_of_isEmpty empty]
  rfl

/-- Applying an action set follows its plan. -/
theorem follows_plan :
    Follows client (invocation.apply client actions) (invocation.plan actions) := by
  rw [apply]
  cases empty : actions.isEmpty with
  | true =>
      rw [invocation.plan_of_isEmpty actions empty]
      exact follows_tell _
  | false =>
      exact (invocation.follows_planPins actions).bind <|
        (invocation.follows_planComment actions).bind <|
        (invocation.follows_planState actions).bind <|
        (invocation.follows_planLock actions).bind <|
        (invocation.follows_planLabels actions).bind <|
        (invocation.follows_planPeople actions).bind <|
        invocation.follows_planDispatch actions

end Invocation

/-- Applying an action set executes its plan, whatever the service replies: the requests
are sent and the effects recorded in the order of the plan, up to the first task that
fails. No task of a plan is a fault if all templates can be rendered. -/
theorem apply_executes_plan (invocation : Invocation) (actions : ActionSet) (client : Client)
    (server : Server) (earlier : List Request) (comment : Value) :
    ((((invocation.apply client actions).run server earlier).1,
        unsaid ((invocation.apply client actions).run server earlier).2) =
      (Task.execute client server earlier comment (invocation.plan actions)).void) ∧
    (invocation.Renders actions → invocation.target.Named →
      GoesThrough (invocation.plan actions)) :=
  ⟨invocation.follows_plan actions comment server earlier,
    invocation.goesThrough_plan actions⟩

/-- A command on a locked issue. -/
def greeting : Invocation :=
  ⟨⟨"greet", []⟩, ⟨.int 7, .str "I_7", .str "open", true, .str "spam", [], [], .str "ada"⟩,
    "issues", .str "ada", 0⟩

/-- An action set with two templates. -/
def welcome : ActionSet :=
  { comments := ["Hi \x7b\x7bauthor\x7d\x7d"], reactions := ["eyes"], labels := ["new"] }

theorem renders_welcome : greeting.Renders welcome where
  comments template member := by
    rw [List.mem_singleton.mp member]
    exact ⟨"Hi ada", rfl⟩
  labels specifier member := by
    rw [List.mem_singleton.mp member]
    exact ⟨"new", rfl⟩
  assign := nofun

/-- The plan unlocks the issue, greets, reacts, locks it again and adds a label. -/
theorem apply_executes_plan_greeting :
    greeting.Renders welcome ∧ greeting.target.Named ∧ GoesThrough (greeting.plan welcome) ∧
      (greeting.plan welcome).length = 5 := by
  have named : greeting.target.Named := ⟨nofun, nofun⟩
  have executes := apply_executes_plan greeting welcome sampleClient acceptAll [] .null
  exact ⟨renders_welcome, named, executes.2 renders_welcome named, rfl⟩

end SlashBot

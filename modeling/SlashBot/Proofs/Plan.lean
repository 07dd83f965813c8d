import SlashBot.Invocation
import SlashBot.Proofs.Client

/-!
# Plans

What an invocation does to its target can be written down before anything is sent: a
list of tasks that depends on the target, the command and the action set alone. Only the
id of a new comment is still missing in it. A plan is executed task by task up to the
first one that fails.
-/

namespace SlashBot

open SlashBot.Template

/-- A piece of work: a call, a reaction to the newest comment, the removal of several
labels, or the fault at which a plan breaks off. -/
inductive Work where
  | ask (call : Call)
  | react (name : String)
  | removeEach (number : Value) (names : List String)
  | halt (fault : Fault)

/-- A piece of work, with the effect that is recorded once it is done. -/
structure Task where
  work : Work
  effect : Option Effect

/-! ## Execution -/

/-- The id of the newest comment once a call was accepted: only a call that creates a
comment changes it. The reply to such a call, or to a query, may still tell of a fault. -/
def Call.newest (comment : Value) (call : Call) (octets : List UInt8) : Except Fault Value :=
  match call with
  | .createComment .. => (Json.ofOctets octets).bind (Value.member "id")
  | .pin _ | .unpin _ => (Client.checkQuery octets).map fun _ => comment
  | _ => .ok comment

/-- Sends the removals of labels one after the other, whatever becomes of them. -/
def askEach (client : Client) (server : Server) (number : Value) :
    (earlier : List Request) → (names : List String) →
      List (Except Fault (List UInt8)) × List Step
  | _, [] => ([], [])
  | earlier, name :: rest =>
      let asked := client.ask server earlier (.removeLabel number name)
      let others := askEach client server number (earlier ++ requestsSent asked.2) rest
      (asked.1 :: others.1, asked.2 ++ others.2)

/-- The first fault among some outcomes. -/
def firstFault? {α : Type} : (outcomes : List (Except Fault α)) → Option Fault
  | [] => none
  | .error fault :: _ => some fault
  | .ok _ :: rest => firstFault? rest

/-- Does a piece of work, and gives the id of the newest comment after it. -/
def Work.perform (client : Client) (server : Server) (earlier : List Request) (comment : Value) :
    (work : Work) → Run Value
  | ask call =>
      (client.ask server earlier call).andThen fun octets _ => (call.newest comment octets, [])
  | react name =>
      (client.ask server earlier (.addReaction comment name)).andThen fun _ _ => (.ok comment, [])
  | removeEach number names =>
      let asked := askEach client server number earlier names
      match firstFault? asked.1 with
      | some fault => (.error fault, asked.2)
      | none => (.ok comment, asked.2)
  | halt fault => (.error fault, [])

namespace Task

/-- Does a task, and records its effect. -/
def perform (client : Client) (server : Server) (earlier : List Request) (comment : Value)
    (task : Task) : Run Value :=
  (task.work.perform client server earlier comment).andThen fun comment _ =>
    (.ok comment, task.effect.toList.map .recorded)

/-- Does tasks in order, up to the first one that fails. -/
def execute (client : Client) (server : Server) :
    (earlier : List Request) → (comment : Value) → (tasks : List Task) → Run Value
  | _, comment, [] => (.ok comment, [])
  | earlier, comment, task :: rest =>
      (task.perform client server earlier comment).andThen fun comment steps =>
        execute client server (earlier ++ requestsSent steps) comment rest

theorem execute_append (client : Client) (server : Server) (earlier : List Request)
    (comment : Value) (tasks more : List Task) :
    execute client server earlier comment (tasks ++ more) =
      (execute client server earlier comment tasks).andThen fun comment steps =>
        execute client server (earlier ++ requestsSent steps) comment more := by
  induction tasks generalizing earlier comment with
  | nil => simp [execute]
  | cons task tasks ih =>
      simp only [List.cons_append, execute, ih]
      rcases perform client server earlier comment task with ⟨_ | newest, steps⟩
      · rfl
      · simp only [Run.andThen_ok]
        rcases execute client server (earlier ++ requestsSent steps) newest tasks with
          ⟨_ | _, others⟩
        · rfl
        · simp

/-- Two lists of tasks that are executed to the end are executed one after the other. -/
theorem of_execute_append_ok {client : Client} {server : Server} {earlier : List Request}
    {comment newest : Value} {tasks more : List Task} {steps : List Step}
    (executed : execute client server earlier comment (tasks ++ more) = (.ok newest, steps)) :
    ∃ middle first second, execute client server earlier comment tasks = (.ok middle, first) ∧
      execute client server (earlier ++ requestsSent first) middle more = (.ok newest, second) ∧
      steps = first ++ second := by
  rw [execute_append] at executed
  rcases opened : execute client server earlier comment tasks with ⟨_ | middle, first⟩
  · rw [opened] at executed
    cases executed
  · rw [opened, Run.andThen_ok] at executed
    rcases Prod.mk.inj executed with ⟨ended, rfl⟩
    exact ⟨middle, first, _, rfl, Prod.ext ended rfl, rfl⟩

/-- The execution of a single task. -/
theorem execute_singleton (client : Client) (server : Server) (earlier : List Request)
    (comment : Value) (task : Task) :
    execute client server earlier comment [task] = task.perform client server earlier comment := by
  simp only [execute]
  rcases perform client server earlier comment task with ⟨_ | newest, steps⟩
  · rfl
  · simp

end Task

/-! ## The calls of a plan -/

/-- The calls that a piece of work may send. -/
def Work.asks (call : Call) : (work : Work) → Prop
  | ask own => call = own
  | react name => ∃ comment, call = .addReaction comment name
  | removeEach number names => ∃ name ∈ names, call = .removeLabel number name
  | halt _ => False

/-- Every call that some tasks may send has a property. -/
def EachCall (property : Call → Prop) (tasks : List Task) : Prop :=
  ∀ task ∈ tasks, ∀ call, task.work.asks call → property call

section Calls

variable {client : Client} {server : Server} {request : Request} {property : Call → Prop}

/-- What asking for a call sends was made for this call. -/
theorem made_of_ask {earlier : List Request} {call : Call}
    (sent : request ∈ requestsSent (client.ask server earlier call).2) :
    client.request call = .ok request := by
  rcases client.ask_cases server earlier call with ⟨fault, asked⟩ | ⟨other, made, -, asked⟩
  · simp [asked] at sent
  · simp only [asked, requestsSent_sent, requestsSent_nil, List.mem_singleton] at sent
    rw [sent]
    exact made

theorem made_of_askEach {number : Value} {earlier : List Request} {names : List String}
    (sent : request ∈ requestsSent (askEach client server number earlier names).2) :
    ∃ name ∈ names, client.request (.removeLabel number name) = .ok request := by
  induction names generalizing earlier with
  | nil => simp [askEach] at sent
  | cons name names ih =>
      simp only [askEach, requestsSent_append, List.mem_append] at sent
      rcases sent with first | later
      · exact ⟨name, by simp, made_of_ask first⟩
      · rcases ih later with ⟨other, member, made⟩
        exact ⟨other, by simp [member], made⟩

theorem call_of_ask {earlier : List Request} {call : Call}
    (sent : request ∈ requestsSent (client.ask server earlier call).2) : request.call = call :=
  client.request_call call (made_of_ask sent)

theorem call_of_askEach {number : Value} {earlier : List Request} {names : List String}
    (sent : request ∈ requestsSent (askEach client server number earlier names).2) :
    ∃ name ∈ names, request.call = .removeLabel number name := by
  obtain ⟨name, member, made⟩ := made_of_askEach sent
  exact ⟨name, member, client.request_call _ made⟩

theorem Work.asks_of_perform {earlier : List Request} {comment : Value} {work : Work}
    (sent : request ∈ requestsSent (work.perform client server earlier comment).2) :
    work.asks request.call := by
  cases work with
  | ask call =>
      rw [Work.perform, Run.requestsSent_andThen _ _ fun _ _ => rfl] at sent
      exact call_of_ask sent
  | react name =>
      rw [Work.perform, Run.requestsSent_andThen _ _ fun _ _ => rfl] at sent
      exact ⟨comment, call_of_ask sent⟩
  | removeEach number names =>
      simp only [Work.perform] at sent
      split at sent <;> exact call_of_askEach sent
  | halt fault => cases sent

/-- A task sends no calls but those of its work. -/
theorem Task.asks_of_perform {earlier : List Request} {comment : Value} {task : Task}
    (sent : request ∈ requestsSent (task.perform client server earlier comment).2) :
    task.work.asks request.call := by
  have silent (comment : Value) (steps : List Step) :
      requestsSent ((.ok comment, task.effect.toList.map .recorded) : Run Value).2 = [] := by
    cases task.effect <;> rfl
  rw [Task.perform, Run.requestsSent_andThen _ _ silent] at sent
  exact Work.asks_of_perform sent

/-- The execution of some tasks sends only calls of which each has the property. -/
theorem EachCall.sent {earlier : List Request} {comment : Value} {tasks : List Task}
    (each : EachCall property tasks)
    (sent : request ∈ requestsSent (Task.execute client server earlier comment tasks).2) :
    property request.call := by
  induction tasks generalizing earlier comment with
  | nil => simp [Task.execute] at sent
  | cons task tasks ih =>
      have first : request ∈ requestsSent (task.perform client server earlier comment).2 →
          property request.call :=
        fun member => each task (by simp) _ (Task.asks_of_perform member)
      have others : EachCall property tasks := fun other member => each other (by simp [member])
      simp only [Task.execute] at sent
      revert sent first
      rcases task.perform client server earlier comment with ⟨_ | newest, steps⟩
      · intro sent first
        exact first sent
      · intro sent first
        simp only [Run.andThen_ok, requestsSent_append, List.mem_append] at sent
        rcases sent with inFirst | inOthers
        · exact first inFirst
        · exact ih others inOthers

theorem EachCall.calls {earlier : List Request} {comment : Value} {tasks : List Task}
    {outcome : Except Fault Value} {steps : List Step} (each : EachCall property tasks)
    (executed : Task.execute client server earlier comment tasks = (outcome, steps)) :
    ∀ call ∈ (requestsSent steps).map Request.call, property call := by
  intro call member
  rcases List.mem_map.mp member with ⟨request, sent, rfl⟩
  have inRun : request ∈ requestsSent (Task.execute client server earlier comment tasks).2 := by
    rw [executed]
    exact sent
  exact each.sent inRun

/-- A call that was accepted was sent. -/
theorem calls_of_execute_ask {earlier : List Request} {comment newest : Value} {call : Call}
    {effect : Option Effect} {steps : List Step}
    (executed : Task.execute client server earlier comment [⟨.ask call, effect⟩] =
      (.ok newest, steps)) :
    (requestsSent steps).map Request.call = [call] := by
  rw [Task.execute_singleton, Task.perform, Work.perform] at executed
  rcases client.ask_cases server earlier call with ⟨fault, asked⟩ | ⟨request, -, rfl, asked⟩
  · rw [asked] at executed
    cases executed
  · rw [asked] at executed
    cases outcome : Client.outcomeOf request.call (server earlier request) with
    | error fault =>
        rw [outcome] at executed
        cases executed
    | ok octets =>
        rw [outcome, Run.andThen_ok] at executed
        cases made : request.call.newest comment octets with
        | error fault =>
            rw [made] at executed
            cases executed
        | ok given =>
            rw [made] at executed
            rcases Prod.mk.inj executed with ⟨-, rfl⟩
            cases effect <;> rfl

theorem EachCall.mono {weaker : Call → Prop} {tasks : List Task} (each : EachCall property tasks)
    (implies : ∀ call, property call → weaker call) : EachCall weaker tasks :=
  fun task member call asked => implies call (each task member call asked)

theorem eachCall_nil : EachCall property [] := by
  intro task member
  cases member

theorem EachCall.append {tasks more : List Task} (first : EachCall property tasks)
    (second : EachCall property more) : EachCall property (tasks ++ more) := by
  intro task member
  rcases List.mem_append.mp member with inFirst | inSecond
  · exact first task inFirst
  · exact second task inSecond

theorem eachCall_singleton {work : Work} (effect : Option Effect)
    (each : ∀ call, work.asks call → property call) : EachCall property [⟨work, effect⟩] := by
  intro task member
  rw [List.mem_singleton.mp member]
  exact each

theorem eachCall_halt (fault : Fault) : EachCall property [⟨.halt fault, none⟩] :=
  eachCall_singleton none fun _ asked => asked.elim

end Calls

/-! ## The plan of an invocation -/

namespace Invocation

/-- A call with its effect, if it is wanted. -/
def planIf (wanted : Bool) (call : Call) (effect : Effect) : List Task :=
  if wanted then [⟨.ask call, some effect⟩] else []

/-- Pins and unpins. -/
def planPins (invocation : Invocation) (actions : ActionSet) : List Task :=
  planIf actions.pin (.pin invocation.target.nodeId) .pin ++
    planIf actions.unpin (.unpin invocation.target.nodeId) .unpin

theorem eachCall_planIf {property : Call → Prop} (wanted : Bool) (call : Call) (effect : Effect)
    (holds : property call) : EachCall property (planIf wanted call effect) := by
  cases wanted with
  | false => exact eachCall_nil
  | true => exact eachCall_singleton _ fun _ same => same ▸ holds

/-- A reaction to the newest comment, if there is such a reaction. -/
def planReaction (name : String) : List Task :=
  if reactionNames.contains name then [⟨.react name, some (.reaction name)⟩] else []

/-- A comment and the reactions to it. -/
def planRemarks (invocation : Invocation) (text : String) (reactions : List String) : List Task :=
  ⟨.ask (.createComment invocation.target.number text), some .comment⟩ ::
    reactions.flatMap planReaction

/-- The text of the comment, or the fault in its template, if there is a comment. -/
def commentText? (invocation : Invocation) (actions : ActionSet) : Option (Except Fault String) :=
  (ActionSet.pickComment? invocation.draw actions.comments).map fun template =>
    render template invocation.commentContext

/-- The comment, with the target unlocked for it if it is locked. -/
def planComment (invocation : Invocation) (actions : ActionSet) : List Task :=
  let target := invocation.target
  match invocation.commentText? actions with
  | none => []
  | some (.error fault) => [⟨.halt fault, none⟩]
  | some (.ok text) =>
      let remarks := invocation.planRemarks text actions.reactions
      if target.locked then
        [⟨.ask (.unlock target.number), none⟩] ++ remarks ++
          [⟨.ask (.lock target.number target.lockReason), none⟩]
      else remarks

/-- The state of the target. -/
def planState (invocation : Invocation) (actions : ActionSet) : List Task :=
  let target := invocation.target
  planIf (actions.reopen && target.isClosed) (.setState target.number "open") .reopen ++
    planIf (actions.close && target.isOpen) (.setState target.number "closed") .close

/-- The lock of the target. -/
def planLock (invocation : Invocation) (actions : ActionSet) : List Task :=
  let target := invocation.target
  planIf (actions.lock && !target.locked)
      (.lock target.number (sentReason actions.lockReason)) .lock ++
    planIf (actions.unlock && target.locked) (.unlock target.number) .unlock

/-- The removal of each label once, if there are any to remove. -/
def planRemoveLabels (invocation : Invocation) (values : List Value) : List Task :=
  match textsOf values with
  | .error fault => [⟨.halt fault, none⟩]
  | .ok names =>
      if !names.eraseDups.isEmpty then
        [⟨.removeEach invocation.target.number names.eraseDups, some .removeLabels⟩]
      else []

/-- The labels: additions come before removals. -/
def planLabels (invocation : Invocation) (actions : ActionSet) : List Task :=
  let target := invocation.target
  match Changes.ofSpecifiers actions.labels invocation.arguments false with
  | .error fault => [⟨.halt fault, none⟩]
  | .ok changes =>
      planIf (!changes.add.isEmpty) (.addLabels target.number changes.add) .addLabels ++
        invocation.planRemoveLabels (resolveRemovals changes.remove target.labels)

/-- The removal of assignees, if there are any to remove. -/
def planUnassign (invocation : Invocation) (values : List Value) : List Task :=
  match textsOf values with
  | .error fault => [⟨.halt fault, none⟩]
  | .ok names =>
      planIf (!names.isEmpty) (.removeAssignees invocation.target.number names) .removeAssignees

/-- The assignees: removals come before additions. -/
def planPeople (invocation : Invocation) (actions : ActionSet) : List Task :=
  let target := invocation.target
  match Changes.ofSpecifiers actions.assign invocation.arguments true with
  | .error fault => [⟨.halt fault, none⟩]
  | .ok changes =>
      invocation.planUnassign (resolveRemovals changes.remove target.assignees) ++
        planIf (!changes.add.isEmpty) (.addAssignees target.number changes.add) .addAssignees

/-- The dispatched event. -/
def planDispatch (invocation : Invocation) (actions : ActionSet) : List Task :=
  planIf actions.dispatch (.dispatch invocation.command.name invocation.payload) .dispatch

/-- Everything that an action set asks for, in order. -/
def plan (invocation : Invocation) (actions : ActionSet) : List Task :=
  invocation.planPins actions ++ (invocation.planComment actions ++
    (invocation.planState actions ++ (invocation.planLock actions ++
      (invocation.planLabels actions ++ (invocation.planPeople actions ++
        invocation.planDispatch actions)))))

/-! The calls of each part of a plan are of few kinds. -/

section Parts

variable {property : Call → Prop} (invocation : Invocation) (actions : ActionSet)

theorem eachCall_planPins (pin : ∀ node, property (.pin node))
    (unpin : ∀ node, property (.unpin node)) : EachCall property (invocation.planPins actions) :=
  (eachCall_planIf _ _ _ (pin _)).append (eachCall_planIf _ _ _ (unpin _))

theorem eachCall_planReactions (reactions : List String)
    (react : ∀ comment name, property (.addReaction comment name)) :
    EachCall property (reactions.flatMap planReaction) := by
  intro task member
  rcases List.mem_flatMap.mp member with ⟨name, -, planned⟩
  rw [planReaction] at planned
  split at planned
  · rw [List.mem_singleton.mp planned]
    rintro call ⟨comment, rfl⟩
    exact react comment name
  · cases planned

theorem eachCall_planRemarks (text : String) (reactions : List String)
    (create : ∀ number text, property (.createComment number text))
    (react : ∀ comment name, property (.addReaction comment name)) :
    EachCall property (invocation.planRemarks text reactions) := by
  have created : EachCall property
      [⟨.ask (.createComment invocation.target.number text), some .comment⟩] :=
    eachCall_singleton _ fun _ same => same ▸ create _ _
  exact created.append (eachCall_planReactions reactions react)

theorem eachCall_planComment (create : ∀ number text, property (.createComment number text))
    (react : ∀ comment name, property (.addReaction comment name))
    (lock : ∀ number reason, property (.lock number reason))
    (unlock : ∀ number, property (.unlock number)) :
    EachCall property (invocation.planComment actions) := by
  rw [planComment]
  split
  · exact eachCall_nil
  · exact eachCall_halt _
  · rename_i text _
    have remarks := invocation.eachCall_planRemarks text actions.reactions create react
    split
    · exact ((eachCall_singleton none fun _ same => same ▸ unlock _).append remarks).append
        (eachCall_singleton none fun _ same => same ▸ lock _ _)
    · exact remarks

theorem eachCall_planState (setState : ∀ number state, property (.setState number state)) :
    EachCall property (invocation.planState actions) :=
  (eachCall_planIf _ _ _ (setState _ _)).append (eachCall_planIf _ _ _ (setState _ _))

theorem eachCall_planLock (lock : ∀ number reason, property (.lock number reason))
    (unlock : ∀ number, property (.unlock number)) :
    EachCall property (invocation.planLock actions) :=
  (eachCall_planIf _ _ _ (lock _ _)).append (eachCall_planIf _ _ _ (unlock _))

theorem eachCall_planLabels (add : ∀ number names, property (.addLabels number names))
    (remove : ∀ number name, property (.removeLabel number name)) :
    EachCall property (invocation.planLabels actions) := by
  simp only [planLabels, planRemoveLabels]
  split
  · exact eachCall_halt _
  · apply (eachCall_planIf _ _ _ (add _ _)).append
    split
    · exact eachCall_halt _
    · split
      · apply eachCall_singleton
        rintro call ⟨name, -, rfl⟩
        exact remove _ name
      · exact eachCall_nil

theorem eachCall_planPeople (remove : ∀ number names, property (.removeAssignees number names))
    (add : ∀ number names, property (.addAssignees number names)) :
    EachCall property (invocation.planPeople actions) := by
  simp only [planPeople, planUnassign]
  split
  · exact eachCall_halt _
  · refine EachCall.append ?_ (eachCall_planIf _ _ _ (add _ _))
    split
    · exact eachCall_halt _
    · exact eachCall_planIf _ _ _ (remove _ _)

theorem eachCall_planDispatch (dispatch : ∀ event payload, property (.dispatch event payload)) :
    EachCall property (invocation.planDispatch actions) :=
  eachCall_planIf _ _ _ (dispatch _ _)

end Parts

end Invocation

/-! ## Plans that do not break off -/

/-- The work is a fault. -/
def Work.halts : Work → Bool
  | halt _ => true
  | _ => false

/-- No task of a plan is a fault. -/
def GoesThrough (tasks : List Task) : Prop :=
  ∀ task ∈ tasks, task.work.halts = false

theorem goesThrough_nil : GoesThrough [] := by
  intro task member
  cases member

theorem GoesThrough.append {tasks more : List Task} (first : GoesThrough tasks)
    (second : GoesThrough more) : GoesThrough (tasks ++ more) := by
  intro task member
  rcases List.mem_append.mp member with inFirst | inSecond
  · exact first task inFirst
  · exact second task inSecond

theorem goesThrough_singleton (task : Task) (goes : task.work.halts = false) :
    GoesThrough [task] := by
  intro other member
  rw [List.mem_singleton.mp member]
  exact goes

/-- The labels and assignees of a target are named by texts. -/
structure Target.Named (target : Target) : Prop where
  labels : ∀ value ∈ target.labels, ∃ text, value = .str text
  assignees : ∀ value ∈ target.assignees, ∃ text, value = .str text

theorem exists_mapM_ok {α β : Type} (image : α → Except Fault β) (items : List α)
    (each : ∀ item ∈ items, ∃ result, image item = .ok result) :
    ∃ results, items.mapM image = .ok results := by
  induction items with
  | nil => exact ⟨[], rfl⟩
  | cons item items ih =>
      rcases each item (by simp) with ⟨result, made⟩
      obtain ⟨results, others⟩ := ih fun other member => each other (by simp [member])
      exact ⟨result :: results, by simp [List.mapM_cons, made, others]; rfl⟩

theorem exists_ofSpecifiers_ok (specifiers : List String) (context : Context) (people : Bool)
    (renders : ∀ specifier ∈ specifiers, ∃ text, render specifier context = .ok text) :
    ∃ changes, Changes.ofSpecifiers specifiers context people = .ok changes := by
  obtain ⟨rendered, made⟩ := exists_mapM_ok (fun specifier => render specifier context) _ renders
  exact ⟨_, by simp only [Changes.ofSpecifiers, specifierWords, made]; rfl⟩

namespace Invocation

variable (invocation : Invocation) (actions : ActionSet)

/-- Every template of an action set can be rendered. -/
structure Renders : Prop where
  comments : ∀ template ∈ actions.comments,
    ∃ text, render template invocation.commentContext = .ok text
  labels : ∀ specifier ∈ actions.labels,
    ∃ text, render specifier invocation.arguments = .ok text
  assign : ∀ specifier ∈ actions.assign,
    ∃ text, render specifier invocation.arguments = .ok text

theorem exists_textsOf_ok (remove : List String) (current : List Value)
    (named : ∀ value ∈ current, ∃ text, value = .str text) :
    ∃ names, textsOf (resolveRemovals remove current) = .ok names := by
  apply exists_mapM_ok
  intro value member
  rw [resolveRemovals] at member
  split at member
  · rcases named value member with ⟨text, rfl⟩
    exact ⟨text, rfl⟩
  · rcases List.mem_map.mp member with ⟨text, -, rfl⟩
    exact ⟨text, rfl⟩

theorem goesThrough_planIf (wanted : Bool) (call : Call) (effect : Effect) :
    GoesThrough (planIf wanted call effect) := by
  cases wanted with
  | false => exact goesThrough_nil
  | true => exact goesThrough_singleton _ rfl

theorem goesThrough_planRemarks (text : String) (reactions : List String) :
    GoesThrough (invocation.planRemarks text reactions) := by
  apply (goesThrough_singleton _ rfl).append
  intro task member
  rcases List.mem_flatMap.mp member with ⟨name, -, planned⟩
  rw [planReaction] at planned
  split at planned
  · rw [List.mem_singleton.mp planned]
    rfl
  · cases planned

theorem goesThrough_planComment (renders : invocation.Renders actions) :
    GoesThrough (invocation.planComment actions) := by
  rw [planComment, commentText?]
  cases picked : ActionSet.pickComment? invocation.draw actions.comments with
  | none => exact goesThrough_nil
  | some template =>
      rcases renders.comments template (List.mem_of_getElem? picked) with ⟨text, rendered⟩
      simp only [Option.map_some, rendered]
      have remarks := invocation.goesThrough_planRemarks text actions.reactions
      split
      · exact ((goesThrough_singleton _ rfl).append remarks).append (goesThrough_singleton _ rfl)
      · exact remarks

theorem goesThrough_planLabels (renders : invocation.Renders actions)
    (named : invocation.target.Named) : GoesThrough (invocation.planLabels actions) := by
  rcases exists_ofSpecifiers_ok _ _ false renders.labels with ⟨changes, made⟩
  rcases exists_textsOf_ok changes.remove _ named.labels with ⟨names, texts⟩
  simp only [planLabels, planRemoveLabels, made, texts]
  apply (goesThrough_planIf _ _ _).append
  split
  · exact goesThrough_singleton _ rfl
  · exact goesThrough_nil

theorem goesThrough_planPeople (renders : invocation.Renders actions)
    (named : invocation.target.Named) : GoesThrough (invocation.planPeople actions) := by
  rcases exists_ofSpecifiers_ok _ _ true renders.assign with ⟨changes, made⟩
  rcases exists_textsOf_ok changes.remove _ named.assignees with ⟨names, texts⟩
  simp only [planPeople, planUnassign, made, texts]
  exact (goesThrough_planIf _ _ _).append (goesThrough_planIf _ _ _)

/-- A plan consists of calls alone if every template can be rendered. -/
theorem goesThrough_plan (renders : invocation.Renders actions)
    (named : invocation.target.Named) : GoesThrough (invocation.plan actions) :=
  ((goesThrough_planIf _ _ _).append (goesThrough_planIf _ _ _)).append <|
    (invocation.goesThrough_planComment actions renders).append <|
    ((goesThrough_planIf _ _ _).append (goesThrough_planIf _ _ _)).append <|
    ((goesThrough_planIf _ _ _).append (goesThrough_planIf _ _ _)).append <|
    (invocation.goesThrough_planLabels actions renders named).append <|
    (invocation.goesThrough_planPeople actions renders named).append <|
    goesThrough_planIf _ _ _

end Invocation

end SlashBot

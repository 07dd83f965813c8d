import SlashBot.Proofs.Admitted
import SlashBot.Proofs.Conversation
import SlashBot.Proofs.Reading

/-!
# Refusals

A refusal is never taken for success: whatever is asked of the service, a reply with a status
from 400 to 599 ends it with a fault that has this status, except that a file may be missing.
So an effect is only recorded after every request for it was accepted, and a configuration is
only empty without having been read if there is no path or no file.

A status that neither succeeds nor refuses, such as a redirection, is taken for success. Apart
from such replies, what is accepted has succeeded.
-/

namespace SlashBot

/-! ## Statuses -/

/-- The reply tells of success. -/
def Reply.isSuccess : (reply : Reply) → Bool
  | unreachable => false
  | response status _ => 200 ≤ status && status ≤ 299

/-- The reply tells neither of success nor of a refusal. -/
def Reply.isUnclear : (reply : Reply) → Bool
  | unreachable => false
  | response status _ => status < 200 || (300 ≤ status && status ≤ 399) || 600 ≤ status

/-- The reply tells of success, unless it is unclear. -/
def Reply.Succeeds (reply : Reply) : Prop :=
  reply.isUnclear = false → reply.isSuccess = true

variable {client : Client} {server : Server} {earlier : List Request} {call : Call}

/-- A reply that is clear and does not succeed refuses. -/
theorem isRefusal_of_failed {status : Nat} {octets : List UInt8}
    (clear : (Reply.response status octets).isUnclear = false)
    (failed : (Reply.response status octets).isSuccess = false) :
    Client.isRefusal status = true := by
  simp [Reply.isUnclear, Reply.isSuccess, Client.isRefusal] at clear failed ⊢
  omega

theorem Reply.succeeds_of_isAccepted {reply : Reply} (accepted : reply.isAccepted = true) :
    reply.Succeeds := by
  intro clear
  cases reply with
  | unreachable => cases accepted
  | response status octets =>
      cases failed : (response status octets).isSuccess with
      | true => rfl
      | false => simp [isAccepted, isRefusal_of_failed clear failed] at accepted

/-! ## Calls -/

namespace Client

/-- What the client does for a call, without the result that it makes of the reply. -/
def perform (client : Client) : (call : Call) → Job Unit
  | .fetchFile path => (client.fetchFile path).bind fun _ => .done ()
  | .fetchIssue number => (client.fetchIssue number).bind fun _ => .done ()
  | .createComment number text => (client.createComment number text).bind fun _ => .done ()
  | .pin node => client.query (.pin node)
  | .unpin node => client.query (.unpin node)
  | call => client.order call

variable {request : Request} {status : Nat} {octets : List UInt8}

theorem accepted_of_isRefusal (refused : isRefusal status = true) :
    accepted call status octets = .error
      (.refused (refusedBy call) status (String.ofList (Text.decodeUtf8Leniently octets))) := by
  rw [accepted, refused]
  rfl

theorem ask_of_isRefusal (made : client.request call = .ok request)
    (answered : server earlier request = .response status octets)
    (refused : isRefusal status = true) :
    client.ask server earlier call =
      (.error (.refused (refusedBy call) status
        (String.ofList (Text.decodeUtf8Leniently octets))),
        [.sent request (.response status octets)]) := by
  simp only [ask, made, answered, outcomeOf, accepted_of_isRefusal refused]

/-- A refused call fails with the status of the reply, unless it asked for a missing file. -/
theorem run_perform_of_isRefusal (made : client.request call = .ok request)
    (answered : server earlier request = .response status octets)
    (refused : isRefusal status = true)
    (present : ∀ path, call = .fetchFile path → status ≠ 404) :
    (client.perform call).run server earlier =
      (.error (.refused (refusedBy call) status
        (String.ofList (Text.decodeUtf8Leniently octets))),
        [.sent request (.response status octets)]) := by
  have asked := ask_of_isRefusal made answered refused
  cases call with
  | fetchFile path =>
      have found : (status == 404) = false := beq_eq_false_iff_ne.mpr (present path rfl)
      simp only [perform.eq_def, Job.run_bind, run_fetchFile, made, answered, fileOf, found,
        Bool.false_eq_true, if_false, accepted_of_isRefusal refused]
      rfl
  | fetchIssue number =>
      simp only [perform.eq_def, fetchIssue, Job.bind_eq, Job.run_bind, run_fetch, asked,
        Run.andThen_error]
  | createComment number text =>
      simp only [perform.eq_def, Job.run_bind, run_createComment, asked, Run.andThen_error]
  | pin node => simp only [perform.eq_def, run_query, asked, Run.andThen_error]
  | unpin node => simp only [perform.eq_def, run_query, asked, Run.andThen_error]
  | _ => simp only [perform.eq_def, run_order, asked, Run.andThen_error]

/-- A missing file is no fault. -/
theorem run_fetchFile_of_missing {path : String}
    (made : client.request (.fetchFile path) = .ok request)
    (answered : server earlier request = .response 404 octets) :
    (client.fetchFile path).run server earlier =
      (.ok none, [.sent request (.response 404 octets)]) := by
  simp only [run_fetchFile, made, answered]
  rfl

/-- A call that did not fail was sent once and accepted. -/
theorem of_ask_ok {steps : List Step}
    (asked : client.ask server earlier call = (.ok octets, steps)) :
    ∃ request, request.call = call ∧ (server earlier request).isAccepted = true ∧
      steps = [.sent request (server earlier request)] := by
  rcases client.ask_cases server earlier call with ⟨fault, failed⟩ | ⟨request, -, same, sent⟩
  · rw [failed] at asked
    cases asked
  · rw [sent] at asked
    rcases Prod.mk.inj asked with ⟨given, rfl⟩
    refine ⟨request, same, ?_, rfl⟩
    cases answered : server earlier request with
    | unreachable =>
        rw [answered] at given
        cases given
    | response status content =>
        rw [answered, outcomeOf, accepted] at given
        split at given
        · cases given
        · rename_i spared
          simpa [Reply.isAccepted] using spared

end Client

/-! ## Tasks -/

/-- Every reply among some steps has a property. -/
def AllReplies (good : Reply → Prop) (steps : List Step) : Prop :=
  ∀ request reply, .sent request reply ∈ steps → good reply

theorem AllReplies.append {good : Reply → Prop} {steps more : List Step}
    (first : AllReplies good steps) (second : AllReplies good more) :
    AllReplies good (steps ++ more) := by
  intro request reply member
  rcases List.mem_append.mp member with inFirst | inSecond
  · exact first request reply inFirst
  · exact second request reply inSecond

/-- A piece of work has something to ask. Only the removal of no labels at all has not. -/
def Work.Busy (work : Work) : Prop :=
  ∀ number, work ≠ .removeEach number []

/-- An effect is earned by some steps: they end with the requests for it, of which there is at
least one, and all replies among them are good. -/
structure Earned (client : Client) (server : Server) (earlier : List Request) (good : Reply → Prop)
    (tasks : List Task) (effect : Effect) (before : List Step) : Prop where
  replies : AllReplies good before
  own : ∃ task ∈ tasks, ∃ start comment newest asked,
    task.effect = some effect ∧ before = start ++ asked ∧ requestsSent asked ≠ [] ∧
    task.work.perform client server (earlier ++ requestsSent start) comment = (.ok newest, asked)

/-- A run gains no steps from what comes after it if that has none. -/
theorem Run.steps_andThen {α β : Type} (run : Run α) (next : α → List Step → Run β)
    (still : ∀ result steps, (next result steps).2 = []) : (run.andThen next).2 = run.2 := by
  rcases run with ⟨_ | result, steps⟩
  · rfl
  · simp [still]

section Tasks

variable {good : Reply → Prop} {comment newest : Value} {steps before later : List Step}
  {effect : Effect}

/-! Work by itself records nothing. -/

theorem Work.effectsRecorded_perform (work : Work) :
    effectsRecorded (work.perform client server earlier comment).2 = [] := by
  cases work with
  | ask call =>
      rw [perform, Run.steps_andThen _ _ fun _ _ => rfl]
      exact effectsRecorded_ask
  | react name =>
      rw [perform, Run.steps_andThen _ _ fun _ _ => rfl]
      exact effectsRecorded_ask
  | removeEach number names =>
      rw [perform]
      split <;> exact effectsRecorded_askEach number names
  | halt fault => rfl

theorem not_recorded (none : effectsRecorded steps = []) : Step.recorded effect ∉ steps := by
  intro member
  have recorded : effect ∈ effectsRecorded steps :=
    List.mem_filterMap.mpr ⟨_, member, rfl⟩
  rw [none] at recorded
  cases recorded

/-! Work that is done got good replies, if accepted replies are good. -/

variable (sound : ∀ earlier request, (server earlier request).isAccepted = true →
  good (server earlier request))

include sound

theorem allReplies_ask {octets : List UInt8}
    (asked : client.ask server earlier call = (.ok octets, steps)) :
    AllReplies good steps ∧ requestsSent steps ≠ [] := by
  obtain ⟨request, -, accepted, rfl⟩ := Client.of_ask_ok asked
  constructor
  · intro other reply member
    cases List.mem_singleton.mp member
    exact sound earlier request accepted
  · simp

theorem allReplies_askEach {number : Value} {names : List String}
    (spared : firstFault? (askEach client server number earlier names).1 = none) :
    AllReplies good (askEach client server number earlier names).2 ∧
      (names ≠ [] → requestsSent (askEach client server number earlier names).2 ≠ []) := by
  induction names generalizing earlier with
  | nil =>
      constructor
      · intro request reply member
        cases member
      · intro some
        exact absurd rfl some
  | cons name names ih =>
      rw [askEach] at spared ⊢
      rcases asked : client.ask server earlier (.removeLabel number name) with
        ⟨fault | octets, steps⟩
      · rw [asked] at spared
        cases spared
      · rw [asked] at spared
        rcases allReplies_ask sound asked with ⟨replies, some⟩
        constructor
        · exact replies.append (ih spared).1
        · intro _
          simp [some]

theorem Work.allReplies_perform {work : Work}
    (performed : work.perform client server earlier comment = (.ok newest, steps)) :
    AllReplies good steps ∧ (work.Busy → requestsSent steps ≠ []) := by
  cases work with
  | ask call =>
      rcases asked : client.ask server earlier call with ⟨fault | octets, own⟩
      · simp [perform, asked] at performed
      · have replies := allReplies_ask sound asked
        simp only [perform, asked, Run.andThen_ok, List.append_nil, Prod.mk.injEq] at performed
        rw [← performed.2]
        exact ⟨replies.1, fun _ => replies.2⟩
  | react name =>
      rcases asked : client.ask server earlier (.addReaction comment name) with
        ⟨fault | octets, own⟩
      · simp [perform, asked] at performed
      · have replies := allReplies_ask sound asked
        simp only [perform, asked, Run.andThen_ok, List.append_nil, Prod.mk.injEq] at performed
        rw [← performed.2]
        exact ⟨replies.1, fun _ => replies.2⟩
  | removeEach number names =>
      rw [perform] at performed
      split at performed
      · cases performed
      · rename_i spared
        rw [← (Prod.mk.inj performed).2]
        rcases allReplies_askEach sound spared with ⟨replies, some⟩
        refine ⟨replies, fun busy => some ?_⟩
        rintro rfl
        exact busy number rfl
  | halt fault => cases performed

omit sound in
/-- A record that steps without records go before stands behind all of them. -/
theorem exists_of_split {asked rest : List Step} (unrecorded : effectsRecorded asked = [])
    (split : asked ++ rest = before ++ .recorded effect :: later) :
    ∃ between, before = asked ++ between ∧ rest = between ++ .recorded effect :: later := by
  rcases List.append_eq_append_iff.mp split with ⟨between, same, behind⟩ | ⟨between, same, front⟩
  · exact ⟨between, same, behind⟩
  · cases between with
    | nil => exact ⟨[], by simpa using same.symm, front.symm⟩
    | cons step between =>
        rcases List.cons.inj front with ⟨rfl, -⟩
        have recorded : Step.recorded effect ∈ asked := by simp [same]
        exact absurd recorded (not_recorded unrecorded)

omit sound in
/-- What is earned after some steps and one more task is earned in the whole. -/
theorem Earned.after {front : List Step} {task : Task} {rest : List Task}
    (replies : AllReplies good front)
    (earned : Earned client server (earlier ++ requestsSent front) good rest effect before) :
    Earned client server earlier good (task :: rest) effect (front ++ before) := by
  obtain ⟨others, own, member, start, comment, newest, asked, recorded, split, some, performed⟩ :=
    earned
  refine ⟨replies.append others, own, List.mem_cons_of_mem _ member, front ++ start, comment,
    newest, asked, recorded, ?_, some, ?_⟩
  · rw [split, List.append_assoc]
  · rw [requestsSent_append, ← List.append_assoc]
    exact performed

/-- The effects that the execution of some tasks records are earned. -/
theorem earned_execute {tasks : List Task} (busy : ∀ task ∈ tasks, task.work.Busy)
    (split : (Task.execute client server earlier comment tasks).2 =
      before ++ .recorded effect :: later) :
    Earned client server earlier good tasks effect before := by
  induction tasks generalizing earlier comment before with
  | nil =>
      rw [Task.execute] at split
      simp at split
  | cons task rest ih =>
      rw [Task.execute, Task.perform] at split
      have unrecorded : effectsRecorded (task.work.perform client server earlier comment).2 = [] :=
        task.work.effectsRecorded_perform
      rcases performed : task.work.perform client server earlier comment with
        ⟨fault | made, asked⟩
      · rw [performed] at split unrecorded
        simp only [Run.andThen_error] at split
        rw [split] at unrecorded
        simp at unrecorded
      · rw [performed] at split unrecorded
        rcases Work.allReplies_perform sound performed with ⟨replies, some⟩
        have others : ∀ other ∈ rest, other.work.Busy :=
          fun other member => busy other (by simp [member])
        simp only [Run.andThen_ok, List.append_assoc] at split
        obtain ⟨between, rfl, behind⟩ := exists_of_split unrecorded split
        cases recorded : task.effect with
        | none =>
            simp only [recorded, Option.toList_none, List.map_nil, List.nil_append,
              List.append_nil] at behind
            exact (ih others behind).after replies
        | some own =>
            simp only [recorded, Option.toList_some, List.map_cons, List.map_nil,
              List.cons_append, List.nil_append] at behind
            cases between with
            | nil =>
                rcases List.cons.inj behind with ⟨same, -⟩
                cases same
                refine ⟨by simpa using replies, task, by simp, [], comment, made, asked, recorded,
                  by simp, some (busy task (by simp)), ?_⟩
                simpa using performed
            | cons step between =>
                rcases List.cons.inj behind with ⟨rfl, later⟩
                have front : AllReplies good (asked ++ [.recorded own]) := by
                  apply replies.append
                  intro request reply member
                  cases List.mem_singleton.mp member
                have whole : asked ++ .recorded own :: between =
                    (asked ++ [.recorded own]) ++ between := by simp
                rw [whole]
                apply Earned.after front
                apply ih others
                simpa using later

end Tasks

/-! ## Invocations -/

theorem Target.Admits.busy {target : Target} {work : Work} (admitted : target.Admits work) :
    work.Busy := by
  intro number idle
  cases admitted with
  | removeEach some =>
      cases idle
      exact some rfl
  | _ => cases idle

/-- The effects that an invocation records are earned. -/
theorem earned_apply {invocation : Invocation} {actions : ActionSet} {before later : List Step}
    {effect : Effect}
    (split : unsaid ((invocation.apply client actions).run server earlier).2 =
      before ++ .recorded effect :: later) :
    Earned client server earlier Reply.Succeeds (invocation.plan actions) effect before := by
  rcases Prod.mk.inj (invocation.follows_plan actions .null server earlier) with ⟨-, sameSteps⟩
  rw [sameSteps] at split
  apply earned_execute _ _ split
  · intro earlier request accepted
    exact Reply.succeeds_of_isAccepted accepted
  · intro task member
    exact (invocation.admitsAll_plan actions task member).busy

/-! ## The configuration -/

/-- Where a configuration comes from: it is empty without a path and without a file, and
otherwise the document in the file, which a reply told of. -/
inductive Configured (client : Client) (server : Server) (earlier : List Request)
    (path : Option String) (config : Value) : Prop
  | unnamed (none : path.filter (· != "") = none) (empty : config = .emptyMap)
  | missing {file : String} {request : Request} {octets : List UInt8} (named : path = some file)
      (made : client.request (.fetchFile file) = .ok request)
      (answered : server earlier request = .response 404 octets) (empty : config = .emptyMap)
  | parsed {file content : String} {request : Request} {status : Nat} {octets : List UInt8}
      (named : path = some file) (made : client.request (.fetchFile file) = .ok request)
      (answered : server earlier request = .response status octets)
      (succeeds : (Reply.response status octets).Succeeds)
      (text : Client.fileText octets = .ok content) (read : Config.ofText content = .ok config)

/-- A reply that gives a result for a file says that there is none, or it holds its text. -/
theorem Client.of_fileOf_ok {file : String} {reply : Reply} {result : Option String}
    (given : fileOf file reply = .ok result) :
    ∃ status octets, reply = .response status octets ∧
      (status = 404 ∧ result = none ∨ reply.isAccepted = true ∧
        ∃ content, fileText octets = .ok content ∧ result = some content) := by
  cases reply with
  | unreachable => cases given
  | response status octets =>
      refine ⟨status, octets, rfl, ?_⟩
      rw [fileOf, accepted] at given
      split at given
      · rename_i missing
        cases given
        exact .inl ⟨eq_of_beq missing, rfl⟩
      · split at given
        · cases given
        · rename_i spared
          cases text : fileText octets with
          | error fault => simp [text, Except.bind, Except.map] at given
          | ok content =>
              simp only [text, Except.bind, Except.map, Except.ok.injEq] at given
              exact .inr ⟨by simpa [Reply.isAccepted] using spared, content, rfl, given.symm⟩

theorem configured_of_readConfig {path : Option String} {config : Value} {steps : List Step}
    (ended : (Event.readConfig client path).run server earlier = (.ok config, steps)) :
    Configured client server earlier path config := by
  rw [Event.readConfig] at ended
  cases given : path.filter (· != "") with
  | none =>
      simp only [given] at ended
      cases ended
      exact .unnamed given rfl
  | some file =>
      have named : path = some file := (Option.filter_eq_some_iff.mp given).1
      simp only [given, Job.bind_eq, Job.lift_eq] at ended
      rcases Job.of_bind_ok ended with ⟨content?, fileSteps, _, fetched, parsing, -⟩
      rw [client.run_fetchFile] at fetched
      cases made : client.request (.fetchFile file) with
      | error fault =>
          rw [made] at fetched
          cases fetched
      | ok request =>
          simp only [made, Prod.mk.injEq] at fetched
          obtain ⟨status, octets, answered, found⟩ := Client.of_fileOf_ok fetched.1
          rcases found with ⟨rfl, rfl⟩ | ⟨accepted, content, text, rfl⟩
          · cases parsing
            exact .missing named made answered rfl
          · simp only [Job.run_ofExcept, Prod.mk.injEq] at parsing
            rw [answered] at accepted
            exact .parsed named made answered (Reply.succeeds_of_isAccepted accepted) text
              parsing.1

/-! ## Refusals are not overlooked -/

/-- A client does not overlook what a server refuses. -/
structure Client.MindsRefusals (client : Client) (server : Server) (earlier : List Request) :
    Prop where
  /-- Every call fails with the status of a reply that does not succeed, unless the reply is
  unclear or says that a file is missing. -/
  raises : ∀ call request status octets, client.request call = .ok request →
    server earlier request = .response status octets →
    (Reply.response status octets).isSuccess = false →
    (Reply.response status octets).isUnclear = false →
    (∀ path, call = .fetchFile path → status ≠ 404) →
    ∃ fault, ((client.perform call).run server earlier).1 = .error fault ∧
      fault.kind = "GitHubError" ∧ fault.status? = some status
  /-- A missing file gives nothing. -/
  missing : ∀ path request octets, client.request (.fetchFile path) = .ok request →
    server earlier request = .response 404 octets →
    ((client.fetchFile path).run server earlier).1 = .ok none
  /-- Every effect that an invocation records is earned by what was done before. -/
  earned : ∀ (invocation : Invocation) (actions : ActionSet) (before : List Step)
    (effect : Effect) (later : List Step),
    unsaid ((invocation.apply client actions).run server earlier).2 =
      before ++ .recorded effect :: later →
    Earned client server earlier Reply.Succeeds (invocation.plan actions) effect before
  /-- A configuration that is read has a source. -/
  configured : ∀ (path : Option String) (config : Value) (steps : List Step),
    (Event.readConfig client path).run server earlier = (.ok config, steps) →
    Configured client server earlier path config

/-- No client overlooks a refusal, whatever the server replies. -/
theorem Client.minds_refusals (client : Client) (server : Server) (earlier : List Request) :
    client.MindsRefusals server earlier where
  raises call request status octets made answered failed clear present := by
    have refused := isRefusal_of_failed clear failed
    exact ⟨_, congrArg Prod.fst (run_perform_of_isRefusal made answered refused present), rfl, rfl⟩
  missing path request octets made answered :=
    congrArg Prod.fst (run_fetchFile_of_missing made answered)
  earned invocation actions before effect later split := earned_apply split
  configured path config steps ended := configured_of_readConfig ended

/-- A server that redirects every request. -/
def redirectAll : Server :=
  fun _ _ => .response 301 []

/-- A redirection is taken for success: a label counts as added although the only reply says
that the issue has moved. -/
theorem addLabels_of_redirectAll :
    let labelled := (greeting.apply sampleClient { labels := ["new"] }).run redirectAll []
    labelled.1 = .ok () ∧ effectsRecorded labelled.2 = [.addLabels] ∧
      (requestsSent labelled.2).map Request.method = [.post] ∧
      ∀ earlier request, (redirectAll earlier request).isSuccess = false :=
  ⟨rfl, by decide, by decide, fun _ _ => rfl⟩

end SlashBot

import SlashBot.Event
import SlashBot.Proofs.Fault

/-!
# Reading for a command

Before a command is applied, its configuration is read and, if it configures something, the
issue is looked up. Each of these is asked for at most once, and a preparation that ends
well can be taken apart into what was read and what was made of it.
-/

namespace SlashBot

/-! ## Reading a file -/

namespace Client

/-- What the reply to the request for a file gives: its text, if there is such a file. -/
def fileOf (path : String) : (reply : Reply) → Except Fault (Option String)
  | .unreachable => .error .unreachable
  | .response status octets =>
      if status == 404 then .ok none
      else ((accepted (.fetchFile path) status octets).bind fileText).map some

variable (client : Client) (server : Server) (earlier : List Request) (path : String)

theorem run_fetchFile : (client.fetchFile path).run server earlier =
    match client.request (.fetchFile path) with
    | .error fault => (.error fault, [])
    | .ok request =>
        (fileOf path (server earlier request), [.sent request (server earlier request)]) := by
  rw [fetchFile, exchange]
  cases client.request (.fetchFile path) with
  | error fault => simp
  | ok request =>
      cases answer : server earlier request with
      | unreachable => simp [answer, fileOf]
      | response status octets =>
          by_cases missing : status = 404
          · simp [answer, fileOf, missing]
          · cases given : accepted (.fetchFile path) status octets with
            | error fault => simp [answer, fileOf, missing, given, Except.bind, Except.map]
            | ok octets =>
                cases text : fileText octets <;>
                  simp [answer, fileOf, missing, given, text, Except.bind, Except.map]

/-- A file is asked for once, unless the request cannot be made. -/
theorem requestsSent_fetchFile :
    requestsSent ((client.fetchFile path).run server earlier).2 =
      (client.request (.fetchFile path)).toOption.toList := by
  rw [run_fetchFile]
  cases client.request (.fetchFile path) <;> rfl

/-- An issue is asked for once, unless the request cannot be made. -/
theorem requestsSent_fetchIssue (number : Value) :
    requestsSent ((client.fetchIssue number).run server earlier).2 =
      (client.request (.fetchIssue number)).toOption.toList := by
  rw [fetchIssue, Job.bind_eq, Job.run_bind, run_fetch,
    Run.requestsSent_andThen _ _ fun octets steps => by simp, ask]
  cases client.request (.fetchIssue number) <;> rfl

end Client

namespace Event

variable {settings : Settings} {client : Client} {subject comment : Value} {command : Command}

/-! ## The configuration and the issue -/

/-- The request for the configuration, if one is made. -/
def configRequests (client : Client) (path : Option String) : List Request :=
  match path.filter (· != "") with
  | none => []
  | some path => (client.request (.fetchFile path)).toOption.toList

theorem requestsSent_readConfig (client : Client) (path : Option String) (server : Server)
    (earlier : List Request) :
    requestsSent ((readConfig client path).run server earlier).2 =
      configRequests client path := by
  rw [readConfig, configRequests]
  cases path.filter (· != "") with
  | none => rfl
  | some path =>
      simp only [Job.bind_eq, Job.lift_eq]
      rw [Job.requestsSent_bind, client.requestsSent_fetchFile]
      intro content
      cases content with
      | none => exact (Job.silent_tell _).bind fun _ => Job.silent_done _
      | some content => exact Job.silent_ofExcept _

theorem requestsSent_readActions (client : Client) (path : Option String) (payload : Value)
    (command : Command) (server : Server) (earlier : List Request) :
    requestsSent ((readActions client path payload command).run server earlier).2 =
      configRequests client path := by
  rw [readActions]
  simp only [Job.bind_eq, Job.lift_eq]
  rw [Job.requestsSent_bind, requestsSent_readConfig]
  intro config
  exact (Job.silent_ofExcept _).bind fun context =>
    (Job.silent_ofExcept _).bind fun raw => (Job.silent_ofExcept _).bind fun shown =>
      (Job.silent_tell _).bind fun _ =>
        (Job.silent_ofExcept _).bind fun actions => Job.silent_done _

/-- Without a configuration nothing is configured. -/
theorem actionsFor_emptyMap (context command : String) :
    Config.actionsFor .emptyMap context command = .ok .emptyMap := by
  have flat : Config.flatEntry [] command = .emptyMap := by
    rw [Config.flatEntry]
    split <;> rfl
  exact congrArg Except.ok flat

/-- What was read before actions were found. -/
theorem of_readActions_ok {path : Option String} {payload : Value} {server : Server}
    {earlier : List Request} {context : String} {actions : ActionSet} {steps : List Step}
    (ended : (readActions client path payload command).run server earlier =
      (.ok (context, actions), steps)) :
    ∃ config raw configSteps,
      (readConfig client path).run server earlier = (.ok config, configSteps) ∧
      contextOf payload = .ok context ∧ Config.actionsFor config context command.name = .ok raw ∧
      ActionSet.ofValue raw = .ok actions ∧ requestsSent steps = requestsSent configSteps := by
  rw [readActions] at ended
  simp only [Job.bind_eq, Job.lift_eq, Job.pure_eq] at ended
  rcases Job.of_bind_ok ended with ⟨config, configSteps, _, read, continued, rfl⟩
  rcases Job.of_ofExcept_ok continued with ⟨found, located, choosing⟩
  rcases Job.of_ofExcept_ok choosing with ⟨raw, chosen, showing⟩
  rcases Job.of_ofExcept_ok showing with ⟨shown, -, telling⟩
  rcases Job.of_bind_ok telling with ⟨_, _, _, told, normalizing, rfl⟩
  rcases Job.of_ofExcept_ok normalizing with ⟨normal, normalized, given⟩
  cases told
  cases given
  exact ⟨config, raw, configSteps, read, located, chosen, normalized, by simp⟩

/-- A configuration that is not empty is the text of the configured file. -/
theorem of_readConfig_ok {path : Option String} {server : Server} {earlier : List Request}
    {config : Value} {steps : List Step}
    (ended : (readConfig client path).run server earlier = (.ok config, steps)) :
    config = .emptyMap ∨ ∃ file content fileSteps, path = some file ∧
      (client.fetchFile file).run server earlier = (.ok (some content), fileSteps) ∧
      Config.ofText content = .ok config ∧ steps = fileSteps := by
  rw [readConfig] at ended
  cases named : path.filter (· != "") with
  | none =>
      simp only [named] at ended
      cases ended
      exact .inl rfl
  | some file =>
      simp only [named, Job.bind_eq, Job.lift_eq] at ended
      rcases Job.of_bind_ok ended with ⟨content, fileSteps, _, fetched, parsing, rfl⟩
      cases content with
      | none =>
          cases parsing
          exact .inl rfl
      | some content =>
          simp only [Job.run_ofExcept, Prod.mk.injEq] at parsing
          rcases parsing with ⟨parsed, rfl⟩
          exact .inr ⟨file, content, fileSteps, (Option.filter_eq_some_iff.mp named).1, fetched,
            parsed, by simp⟩

/-- The request for the issue, if one is made. -/
def issueRequests (client : Client) (subject : Value) (actions : ActionSet) : List Request :=
  match Target.ofRecord subject with
  | .error _ => []
  | .ok copy =>
      if actions.isEmpty then [] else (client.request (.fetchIssue copy.number)).toOption.toList

theorem requestsSent_readTarget (client : Client) (subject : Value) (actions : ActionSet)
    (server : Server) (earlier : List Request) :
    requestsSent ((readTarget client subject actions).run server earlier).2 =
      issueRequests client subject actions := by
  rw [readTarget, issueRequests]
  cases Target.ofRecord subject with
  | error fault => rfl
  | ok copy =>
      simp only [Job.bind_eq, Job.lift_eq, Job.ofExcept, Job.bind]
      cases actions.isEmpty with
      | true => rfl
      | false =>
          simp only [Bool.false_eq_true, if_false]
          rw [Job.requestsSent_bind, client.requestsSent_fetchIssue]
          intro record
          exact Job.silent_ofExcept _

/-- What was looked up before a target was found. -/
theorem of_readTarget_ok {actions : ActionSet} {server : Server} {earlier : List Request}
    {target : Target} {steps : List Step} (filled : actions.isEmpty = false)
    (ended : (readTarget client subject actions).run server earlier = (.ok target, steps)) :
    ∃ copy record issueSteps, Target.ofRecord subject = .ok copy ∧
      (client.fetchIssue copy.number).run server earlier = (.ok record, issueSteps) ∧
      Target.ofRecord record = .ok target ∧ steps = issueSteps := by
  rw [readTarget] at ended
  simp only [filled, Bool.false_eq_true, if_false, Job.bind_eq, Job.lift_eq] at ended
  rcases Job.of_ofExcept_ok ended with ⟨copy, copied, looking⟩
  rcases Job.of_bind_ok looking with ⟨record, issueSteps, _, looked, checking, rfl⟩
  simp only [Job.run_ofExcept, Prod.mk.injEq] at checking
  rcases checking with ⟨valid, rfl⟩
  exact ⟨copy, record, issueSteps, copied, looked, valid, by simp⟩

/-- The parts of a preparation. -/
theorem of_prepare_ok {payload : Value} {server : Server} {earlier : List Request}
    {invocation : Invocation} {actions : ActionSet} {steps : List Step}
    (ended : (prepare settings client payload subject comment command).run server earlier =
      (.ok (invocation, actions), steps)) :
    ∃ context target sender first second,
      (readActions client settings.configPath payload command).run server earlier =
        (.ok (context, actions), first) ∧
      (readTarget client subject actions).run server (earlier ++ requestsSent first) =
        (.ok target, second) ∧
      senderOf payload comment = .ok sender ∧
      invocation = ⟨command, target, context, sender, settings.draw⟩ ∧
      requestsSent steps = requestsSent first ++ requestsSent second := by
  rw [prepare] at ended
  simp only [Job.bind_eq, Job.lift_eq, Job.pure_eq] at ended
  rcases Job.of_bind_ok ended with ⟨⟨context, found⟩, first, _, acting, continued, rfl⟩
  rcases Job.of_bind_ok continued with ⟨target, second, _, looking, concluded, rfl⟩
  rcases Job.of_ofExcept_ok concluded with ⟨sender, sent, given⟩
  cases given
  exact ⟨context, target, sender, first, second, acting, looking, sent, rfl, by simp⟩

theorem foreign_senderOf (payload comment : Value) :
    FaultsAre Fault.Foreign (senderOf payload comment) :=
  (payload.foreign_entry "sender").bind fun _ => (comment.foreign_entry "user").bind fun _ =>
    Target.foreign_login _

theorem foreign_readTarget (client : Client) (subject : Value) (actions : ActionSet) :
    (readTarget client subject actions).FaultsAre Fault.Foreign := by
  refine (Job.faultsAre_ofExcept (Target.foreign_ofRecord subject)).bind ?_
  intro copy
  split
  · exact Job.faultsAre_done copy
  · exact (client.foreign_fetchIssue _).bind fun record =>
      Job.faultsAre_ofExcept (Target.foreign_ofRecord record)

theorem foreign_contextOf (payload : Value) : FaultsAre Fault.Foreign (contextOf payload) :=
  (payload.foreign_entry "issue").bind fun _ => (Value.foreign_entry _ _).bind fun _ =>
    faultsAre_ok _

/-- Actions that are read without a request are not to blame on the configuration. -/
theorem foreign_readActions {path : Option String} (payload : Value) (command : Command)
    (unasked : configRequests client path = []) :
    (readActions client path payload command).FaultsAre Fault.Foreign := by
  have unconfigured : (Job.bind (Job.ofExcept (contextOf payload)) fun context =>
      (Job.ofExcept (Config.actionsFor .emptyMap context command.name)).bind fun raw =>
        (Job.ofExcept raw.shown).bind fun shown =>
          (Job.tell (.detail ("Actions (" ++ context ++ "): " ++ shown))).bind fun _ =>
            (Job.ofExcept (ActionSet.ofValue raw)).bind fun actions =>
              .done (context, actions)).FaultsAre Fault.Foreign := by
    refine (Job.faultsAre_ofExcept (foreign_contextOf payload)).bind ?_
    intro context
    rw [actionsFor_emptyMap]
    exact (Job.faultsAre_tell _).bind fun _ =>
      (Job.faultsAre_ofExcept (faultsAre_ok _)).bind fun _ => Job.faultsAre_done _
  rw [configRequests] at unasked
  rw [readActions, readConfig]
  cases named : path.filter (· != "") with
  | none => exact unconfigured
  | some file =>
      simp only [named] at unasked
      cases made : client.request (.fetchFile file) with
      | error fault =>
          intro server earlier
          simp only [Job.bind_eq, Job.run_bind, client.run_fetchFile, made, Run.andThen_error]
          exact faultsAre_error (client.foreign_request _ fault made)
      | ok request =>
          rw [made] at unasked
          cases unasked

/-! ## The requests for them -/

theorem configRequests_cases (client : Client) (path : Option String) :
    configRequests client path = [] ∨ ∃ file request, path = some file ∧
      client.request (.fetchFile file) = .ok request ∧ configRequests client path = [request] := by
  rw [configRequests]
  cases named : path.filter (· != "") with
  | none => exact .inl rfl
  | some file =>
      cases made : client.request (.fetchFile file) with
      | error fault => exact .inl (by simp [made, Except.toOption])
      | ok request =>
          exact .inr ⟨file, request, (Option.filter_eq_some_iff.mp named).1, made,
            by simp [made, Except.toOption]⟩

theorem issueRequests_cases (client : Client) (subject : Value) (actions : ActionSet) :
    issueRequests client subject actions = [] ∨ ∃ number request,
      client.request (.fetchIssue number) = .ok request ∧
        issueRequests client subject actions = [request] := by
  rw [issueRequests]
  cases Target.ofRecord subject with
  | error fault => exact .inl rfl
  | ok copy =>
      dsimp only
      cases actions.isEmpty with
      | true => exact .inl rfl
      | false =>
          cases made : client.request (.fetchIssue copy.number) with
          | error fault => exact .inl rfl
          | ok request => exact .inr ⟨copy.number, request, made, rfl⟩

theorem safe_configRequests {path : Option String} {request : Request}
    (member : request ∈ configRequests client path) : request.method.isSafe = true := by
  rcases configRequests_cases client path with none | ⟨file, made, -, asked, only⟩
  · rw [none] at member
    cases member
  · rw [only, List.mem_singleton] at member
    rw [member]
    exact client.isSafe_request _ asked rfl

theorem safe_issueRequests {actions : ActionSet} {request : Request}
    (member : request ∈ issueRequests client subject actions) : request.method.isSafe = true := by
  rcases issueRequests_cases client subject actions with none | ⟨number, made, asked, only⟩
  · rw [none] at member
    cases member
  · rw [only, List.mem_singleton] at member
    rw [member]
    exact client.isSafe_request _ asked rfl

/-- The requests of a preparation only read. -/
theorem requestsSent_prepare (settings : Settings) (client : Client)
    (payload subject comment : Value) (command : Command) (server : Server)
    (earlier : List Request) :
    ∃ looked, requestsSent ((prepare settings client payload subject comment command).run server
        earlier).2 = configRequests client settings.configPath ++ looked ∧
      (looked = [] ∨ ∃ actions, looked = issueRequests client subject actions) := by
  have acted := requestsSent_readActions client settings.configPath payload command server earlier
  rw [prepare]
  simp only [Job.bind_eq, Job.lift_eq]
  rw [Job.run_bind]
  revert acted
  rcases (readActions client settings.configPath payload command).run server earlier with
    ⟨fault | ⟨context, actions⟩, steps⟩
  · intro acted
    exact ⟨[], by simpa using acted, .inl rfl⟩
  · intro acted
    refine ⟨issueRequests client subject actions, ?_, .inr ⟨actions, rfl⟩⟩
    rw [Run.andThen_ok, requestsSent_append, acted, Job.requestsSent_bind,
      requestsSent_readTarget]
    intro target
    exact (Job.silent_ofExcept _).bind fun sender => Job.silent_done _

end Event

end SlashBot

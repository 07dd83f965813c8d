import SlashBot.Proofs.Reading

/-!
# Handling events

The handling of an event sifts, reads and only then changes something. Sifting needs no
request. Reading asks for the configuration and, if it asks for something, for the issue;
and what is read must make sense before the first request that changes anything.
-/

namespace SlashBot

/-! ## Sifting -/

namespace Event

/-- An event brings a command: it tells of a new comment on a subject with a number, and
the first line of the comment is the command. -/
structure Brings (event : Event) (settings : Settings) (subject comment : Value)
    (command : Command) : Prop where
  isNew : ∃ action, event.payload.entry "action" = .ok action ∧ event.isNewComment action = true
  about : subjectOf event.payload = .ok subject
  present : subject.truthy = true
  numbered : ∃ number, subject.entry "number" = .ok number ∧ number.isNull = false
  said : commentOf event.payload = .ok comment
  read : ∃ text line, textOf comment = .ok text ∧
    commandLine? settings.trigger text = some line ∧ Command.ofLine? line = some command

variable {event : Event} {settings : Settings} {client : Client} {subject comment : Value}
  {command : Command}

/-- What an event brings is carried out. -/
theorem handle_of_brings (brings : event.Brings settings subject comment command) :
    event.handle settings client =
      carryOut settings client event.payload subject comment command := by
  obtain ⟨⟨action, acted, isNew⟩, about, present, ⟨number, numbered, some⟩, said,
    ⟨text, line, texted, commanded, named⟩⟩ := brings
  simp [handle, acted, about, isNew, present, numbered, some, said, texted, commanded, named,
    Job.ofExcept, Job.bind]

/-- Handling ends without a request: the event is ignored, or it cannot be read. -/
structure SiftedOut (job : Job Outcome) : Prop where
  silent : job.Silent
  ends : ∀ server earlier, (∃ cause, (job.run server earlier).1 = .ok (.ignored cause)) ∨
    ∃ fault, (job.run server earlier).1 = .error fault ∧ fault.Foreign

theorem siftedOut_fail {fault : Fault} (foreign : fault.Foreign) : SiftedOut (.fail fault) :=
  ⟨fun _ _ => rfl, fun _ _ => .inr ⟨fault, rfl, foreign⟩⟩

theorem siftedOut_ignored (cause : Ignored) : SiftedOut (.done (.ignored cause)) :=
  ⟨fun _ _ => rfl, fun _ _ => .inl ⟨cause, rfl⟩⟩

theorem siftedOut_told (entry : Entry) (cause : Ignored) :
    SiftedOut (.say entry (.done (.ignored cause))) :=
  ⟨fun _ _ => rfl, fun _ _ => .inl ⟨cause, rfl⟩⟩

theorem foreign_textOf (comment : Value) : FaultsAre Fault.Foreign (textOf comment) := by
  apply (comment.foreign_entry "body").bind
  intro body
  split
  · exact faultsAre_ok _
  · exact faultsAre_error rfl

theorem foreign_subjectOf (payload : Value) : FaultsAre Fault.Foreign (subjectOf payload) :=
  (payload.foreign_entry "issue").bind fun _ =>
    (payload.foreign_entry "pull_request").bind fun _ => faultsAre_ok _

theorem foreign_commentOf (payload : Value) : FaultsAre Fault.Foreign (commentOf payload) :=
  (payload.foreign_entry "comment").bind fun _ => faultsAre_ok _

theorem siftedOut_of_reading {α : Type} {outcome : Except Fault α} {next : α → Job Outcome}
    (foreign : FaultsAre Fault.Foreign outcome)
    (reached : ∀ result, outcome = .ok result → SiftedOut (next result)) :
    SiftedOut ((Job.ofExcept outcome).bind next) := by
  cases outcome with
  | error fault => exact siftedOut_fail (foreign fault rfl)
  | ok result => exact reached result rfl

/-- An event that brings no command is sifted out. -/
theorem siftedOut_of_not_brings
    (nothing : ∀ subject comment command, ¬ event.Brings settings subject comment command) :
    SiftedOut (event.handle settings client) := by
  rw [handle]
  simp only [Job.lift_eq, Job.bind_eq, Job.pure_eq]
  apply siftedOut_of_reading (Value.foreign_entry _ _)
  intro action acted
  apply siftedOut_of_reading (foreign_subjectOf _)
  intro subject about
  split
  · exact siftedOut_told _ _
  · rename_i relevant
    apply siftedOut_of_reading (Value.foreign_entry _ _)
    intro number numbered
    split
    · exact siftedOut_told _ _
    · rename_i some
      apply siftedOut_of_reading (foreign_commentOf _)
      intro comment said
      apply siftedOut_of_reading (foreign_textOf _)
      intro text texted
      split
      · exact siftedOut_told _ _
      · rename_i line commanded
        split
        · exact siftedOut_ignored _
        · rename_i command named
          simp only [Bool.or_eq_true, Bool.not_eq_true', not_or, Bool.not_eq_false] at relevant
          have brings : event.Brings settings subject comment command :=
            ⟨⟨action, acted, relevant.1⟩, about, relevant.2,
              ⟨number, numbered, Bool.eq_false_iff.mpr some⟩, said,
              ⟨text, line, texted, commanded, named⟩⟩
          exact (nothing subject comment command brings).elim

/-! ## Changing -/

theorem requestsSent_conclude (client : Client) (invocation : Invocation) (actions : ActionSet)
    (server : Server) (earlier : List Request) :
    requestsSent ((conclude client invocation actions).run server earlier).2 =
      requestsSent ((invocation.apply client actions).run server earlier).2 := by
  rw [conclude]
  simp only [Job.bind_eq]
  rw [Job.requestsSent_bind, Job.run_recording]
  intro applied
  exact (Job.silent_tell _).bind fun _ => Job.silent_done _

/-- The command is completed with the effects that applying it recorded. -/
theorem outcome_conclude (client : Client) (invocation : Invocation) (actions : ActionSet)
    (server : Server) (earlier : List Request) :
    ((conclude client invocation actions).run server earlier).1 =
      ((invocation.apply client actions).run server earlier).1.map fun _ =>
        .completed invocation.command
          (effectsRecorded ((invocation.apply client actions).run server earlier).2) := by
  simp only [conclude, Job.bind_eq, Job.run_bind, Job.run_recording]
  rcases (invocation.apply client actions).run server earlier with ⟨fault | result, steps⟩ <;> rfl

theorem foreign_conclude (client : Client) (invocation : Invocation) (actions : ActionSet) :
    (conclude client invocation actions).FaultsAre Fault.Foreign := by
  intro server earlier
  rw [outcome_conclude]
  exact (invocation.foreign_apply client actions server earlier).map _

/-- What is done for a command once it was announced. -/
def pursue (settings : Settings) (client : Client) (payload subject comment : Value)
    (command : Command) : Job Outcome :=
  (prepare settings client payload subject comment command).bind fun prepared =>
    conclude client prepared.1 prepared.2

/-- A command is announced by two entries of the log and then pursued. -/
theorem carryOut_eq {payload number : Value} (numbered : subject.entry "number" = .ok number) :
    carryOut settings client payload subject comment command =
      .say (.note "▶" ("Command /" ++ command.name ++ " on #" ++ number.display))
        (.say (.detail ("Command args: " ++ (Call.textList command.args).display))
          (pursue settings client payload subject comment command)) := by
  rw [carryOut]
  rw [numbered]
  rfl

/-- Announcing a command needs no request. -/
theorem run_of_brings (brings : event.Brings settings subject comment command) (server : Server)
    (earlier : List Request) :
    let run := (pursue settings client event.payload subject comment command).run server earlier
    ((event.handle settings client).run server earlier).1 = run.1 ∧
      requestsSent ((event.handle settings client).run server earlier).2 = requestsSent run.2 := by
  rcases brings.numbered with ⟨number, numbered, -⟩
  rw [handle_of_brings brings, carryOut_eq numbered]
  exact ⟨rfl, rfl⟩

/-- Applying an action set in which nothing is configured only says so. -/
theorem run_apply_of_isEmpty {actions : ActionSet} (empty : actions.isEmpty = true)
    (invocation : Invocation) (client : Client) (server : Server) (earlier : List Request) :
    ∃ entry, (invocation.apply client actions).run server earlier = (.ok (), [.said entry]) := by
  rw [Invocation.apply]
  rw [empty]
  exact ⟨_, rfl⟩

/-- The grounds for changing something: everything that was read for a command, and what was
made of it. -/
structure Grounds (event : Event) (settings : Settings) (client : Client) (server : Server)
    (earlier : List Request) where
  subject : Value
  comment : Value
  command : Command
  brings : event.Brings settings subject comment command
  file : String
  configured : settings.configPath = some file
  content : String
  fileSteps : List Step
  fetched : (client.fetchFile file).run server earlier = (.ok (some content), fileSteps)
  config : Value
  parsed : Config.ofText content = .ok config
  context : String
  located : contextOf event.payload = .ok context
  raw : Value
  chosen : Config.actionsFor config context command.name = .ok raw
  actions : ActionSet
  normalized : ActionSet.ofValue raw = .ok actions
  filled : actions.isEmpty = false
  copy : Target
  copied : Target.ofRecord subject = .ok copy
  record : Value
  issueSteps : List Step
  looked : (client.fetchIssue copy.number).run server (earlier ++ requestsSent fileSteps) =
    (.ok record, issueSteps)
  target : Target
  valid : Target.ofRecord record = .ok target
  sender : Value
  sent : senderOf event.payload comment = .ok sender

namespace Grounds

variable {server : Server} {earlier : List Request}

/-- The requests by which everything was read. -/
def reads (grounds : Grounds event settings client server earlier) : List Request :=
  requestsSent grounds.fileSteps ++ requestsSent grounds.issueSteps

/-- The invocation for which everything was read. -/
def invocation (grounds : Grounds event settings client server earlier) : Invocation :=
  ⟨grounds.command, grounds.target, grounds.context, grounds.sender, settings.draw⟩

end Grounds

/-- A preparation that finds something to do has the grounds for it. -/
theorem grounds_of_prepare {server : Server} {earlier : List Request} {invocation : Invocation}
    {actions : ActionSet} {steps : List Step}
    (brings : event.Brings settings subject comment command) (filled : actions.isEmpty = false)
    (prepared : (prepare settings client event.payload subject comment command).run server
      earlier = (.ok (invocation, actions), steps)) :
    ∃ grounds : Grounds event settings client server earlier,
      grounds.actions = actions ∧ grounds.invocation = invocation ∧
        requestsSent steps = grounds.reads := by
  obtain ⟨context, target, sender, first, second, acting, looking, sent, rfl, requests⟩ :=
    of_prepare_ok prepared
  obtain ⟨config, raw, configSteps, read, located, chosen, normalized, asked⟩ :=
    of_readActions_ok acting
  rcases of_readTarget_ok filled looking with ⟨copy, record, issueSteps, copied, looked, valid, rfl⟩
  rcases of_readConfig_ok read with
    rfl | ⟨file, content, fileSteps, configured, fetched, parsed, rfl⟩
  · -- An empty configuration would leave nothing to do.
    rw [actionsFor_emptyMap] at chosen
    cases chosen
    cases normalized
    cases filled
  · rw [asked] at looked requests
    exact ⟨⟨subject, comment, command, brings, file, configured, content, configSteps, fetched,
      config, parsed, context, located, raw, chosen, actions, normalized, filled, copy, copied,
      record, second, looked, target, valid, sender, sent⟩, rfl, rfl, requests⟩

/-- The first requests of a command read, and those after them are of one application of an
action set. -/
theorem requestsSent_pursue (settings : Settings) (client : Client)
    (payload subject comment : Value) (command : Command) (server : Server)
    (earlier : List Request) :
    ∃ looked applied, requestsSent ((pursue settings client payload subject comment command).run
        server earlier).2 = configRequests client settings.configPath ++ looked ++ applied ∧
      (looked = [] ∨ ∃ actions, looked = issueRequests client subject actions) ∧
      (applied = [] ∨ ∃ invocation actions steps,
        (prepare settings client payload subject comment command).run server earlier =
          (.ok (invocation, actions), steps) ∧
        requestsSent steps = configRequests client settings.configPath ++ looked ∧
        applied = requestsSent ((invocation.apply client actions).run server
          (earlier ++ requestsSent steps)).2) := by
  obtain ⟨looked, asked, optional⟩ :=
    requestsSent_prepare settings client payload subject comment command server earlier
  rw [pursue]
  rw [Job.run_bind]
  rcases prepared : (prepare settings client payload subject comment command).run server earlier
    with ⟨fault | ⟨invocation, actions⟩, steps⟩
  · rw [prepared] at asked
    exact ⟨looked, [], by simpa using asked, optional, .inl rfl⟩
  · rw [prepared] at asked
    refine ⟨looked, _, ?_, optional, .inr ⟨invocation, actions, steps, rfl, asked, rfl⟩⟩
    rw [Run.andThen_ok, requestsSent_append, asked, requestsSent_conclude, ← asked]

/-- If nothing is configured for a command, only what the event itself tells can still be
wrong. -/
theorem run_resting {server : Server} {earlier : List Request} {payload : Value}
    {context : String} {actions : ActionSet} {steps : List Step}
    (acting : (readActions client settings.configPath payload command).run server earlier =
      (.ok (context, actions), steps))
    (empty : actions.isEmpty = true) :
    let run := (pursue settings client payload subject comment command).run server earlier
    requestsSent run.2 = configRequests client settings.configPath ∧
      run.1 = (Target.ofRecord subject).bind fun _ =>
        (senderOf payload comment).map fun _ => .completed command [] := by
  have asked := requestsSent_readActions client settings.configPath payload command server earlier
  rw [acting] at asked
  simp only [pursue, prepare, readTarget]
  simp only [Job.bind_eq, Job.lift_eq, Job.run_bind, acting, empty, Run.andThen_ok]
  cases Target.ofRecord subject with
  | error fault =>
      constructor
      · simpa using asked
      · rfl
  | ok copy =>
      cases senderOf payload comment with
      | error fault =>
          constructor
          · simpa using asked
          · rfl
      | ok sender =>
          obtain ⟨entry, applied⟩ := run_apply_of_isEmpty empty
            ⟨command, copy, context, sender, settings.draw⟩ client server
            (earlier ++ requestsSent steps)
          simp only [if_true, Job.pure_eq, Job.ofExcept, Job.run_done, Run.andThen_ok,
            List.append_nil, requestsSent_append, requestsSent_conclude, outcome_conclude, applied]
          constructor
          · simpa using asked
          · rfl

/-- The run of an event reads first, checks what was read, and changes something only then. -/
structure ReadsFirst (event : Event) (settings : Settings) (client : Client) (server : Server)
    (earlier : List Request) (run : Run Outcome) : Prop where
  /-- An ignored event needs no request. -/
  ignored : ∀ cause, run.1 = .ok (.ignored cause) → requestsSent run.2 = []
  /-- The configuration is asked for, then the issue, and then one action set is applied. -/
  stages : ∃ configured looked applied,
    requestsSent run.2 = configured ++ looked ++ applied ∧
    (configured = [] ∨ ∃ file request, settings.configPath = some file ∧
      client.request (.fetchFile file) = .ok request ∧ configured = [request]) ∧
    (looked = [] ∨ ∃ number request, client.request (.fetchIssue number) = .ok request ∧
      looked = [request]) ∧
    (applied = [] ∨ ∃ (invocation : Invocation) (actions : ActionSet),
      applied = requestsSent ((invocation.apply client actions).run server
        (earlier ++ (configured ++ looked))).2)
  /-- A request that may change something has its grounds, and follows them. -/
  grounded : ∀ request ∈ requestsSent run.2, request.method.isSafe = false →
    ∃ grounds : Grounds event settings client server earlier,
      requestsSent run.2 = grounds.reads ++
        requestsSent ((grounds.invocation.apply client grounds.actions).run server
          (earlier ++ grounds.reads)).2
  /-- A mistake in the configuration is found after its request alone. -/
  mistaken : ∀ fault, run.1 = .error fault → fault.isConfigFault = true →
    ∃ file request, settings.configPath = some file ∧
      client.request (.fetchFile file) = .ok request ∧ requestsSent run.2 = [request]
  /-- If nothing is configured for a command, then it is completed without effects, unless the
  subject of the event is no target or its sender cannot be told. -/
  resting : ∀ subject comment command context actions steps,
    event.Brings settings subject comment command →
    (readActions client settings.configPath event.payload command).run server earlier =
      (.ok (context, actions), steps) → actions.isEmpty = true →
    requestsSent run.2 = configRequests client settings.configPath ∧
      run.1 = (Target.ofRecord subject).bind fun _ =>
        (senderOf event.payload comment).map fun _ => .completed command []
  /-- Without a path, or without a file at the path, nothing is configured. -/
  unconfigured : ∀ command context, contextOf event.payload = .ok context →
    (settings.configPath.filter (· != "") = none ∨
      ∃ file request octets, settings.configPath = some file ∧
        client.request (.fetchFile file) = .ok request ∧
        server earlier request = .response 404 octets) →
    ∃ actions steps, (readActions client settings.configPath event.payload command).run server
      earlier = (.ok (context, actions), steps) ∧ actions.isEmpty = true

theorem siftedOut_or_brings (event : Event) (settings : Settings) (client : Client) :
    SiftedOut (event.handle settings client) ∨
      ∃ subject comment command, event.Brings settings subject comment command := by
  by_cases brought : ∃ subject comment command, event.Brings settings subject comment command
  · exact .inr brought
  · apply Or.inl
    apply siftedOut_of_not_brings
    intro subject comment command brings
    exact brought ⟨subject, comment, command, brings⟩

/-- What is done for a command is never to ignore it. -/
theorem not_ignored {payload : Value} {server : Server} {earlier : List Request}
    {cause : Ignored} :
    ((pursue settings client payload subject comment command).run server earlier).1 ≠
      .ok (.ignored cause) := by
  rw [pursue]
  rw [Job.run_bind]
  rcases (prepare settings client payload subject comment command).run server earlier with
    ⟨fault | ⟨invocation, actions⟩, steps⟩
  · exact nofun
  · rw [Run.andThen_ok, outcome_conclude]
    cases ((invocation.apply client actions).run server (earlier ++ requestsSent steps)).1 <;>
      exact nofun

/-- A command can only be mistaken in its configuration. -/
theorem of_pursue_mistaken {payload : Value} {server : Server} {earlier : List Request}
    {fault : Fault} {steps : List Step} (blamed : fault.isConfigFault = true)
    (failed : (pursue settings client payload subject comment command).run server earlier =
      (.error fault, steps)) :
    (readActions client settings.configPath payload command).run server earlier =
      (.error fault, steps) := by
  have blameless (foreign : fault.Foreign) : False := by
    rw [Fault.Foreign, blamed] at foreign
    cases foreign
  rcases Job.of_bind_error failed with preparing | ⟨prepared, _, _, -, concluding, -⟩
  · rcases Job.of_bind_error preparing with acting | ⟨acted, _, _, -, looking, -⟩
    · exact acting
    · refine (blameless ?_).elim
      have foreign : ((readTarget client subject acted.2).bind fun target =>
          (Job.ofExcept (senderOf payload comment)).bind fun sender => .done
            ((⟨command, target, acted.1, sender, settings.draw⟩ : Invocation),
              acted.2)).FaultsAre Fault.Foreign :=
        (foreign_readTarget client subject acted.2).bind fun target =>
          (Job.faultsAre_ofExcept (foreign_senderOf payload comment)).bind fun sender =>
            Job.faultsAre_done _
      exact foreign server _ fault (congrArg Prod.fst looking)
  · refine (blameless ?_).elim
    exact foreign_conclude client _ _ server _ fault (congrArg Prod.fst concluding)

theorem run_mistaken {payload : Value} {server : Server} {earlier : List Request} {fault : Fault}
    (blamed : fault.isConfigFault = true)
    (failed : ((pursue settings client payload subject comment command).run server earlier).1 =
      .error fault) :
    ∃ file request, settings.configPath = some file ∧
      client.request (.fetchFile file) = .ok request ∧
      requestsSent ((pursue settings client payload subject comment command).run server
        earlier).2 = [request] := by
  have acting := of_pursue_mistaken blamed (Prod.ext failed rfl)
  have asked := requestsSent_readActions client settings.configPath payload command server earlier
  rw [acting] at asked
  rcases configRequests_cases client settings.configPath with
    unasked | ⟨file, request, configured, made, only⟩
  · have foreign := foreign_readActions payload command unasked server earlier fault
      (congrArg Prod.fst acting)
    rw [Fault.Foreign, blamed] at foreign
    cases foreign
  · exact ⟨file, request, configured, made, asked.trans only⟩

/-- Something is only changed once there are the grounds for it. -/
theorem grounds_of_change {server : Server} {earlier : List Request} {request : Request}
    (brings : event.Brings settings subject comment command)
    (sent : request ∈ requestsSent
      ((pursue settings client event.payload subject comment command).run server earlier).2)
    (changes : request.method.isSafe = false) :
    ∃ grounds : Grounds event settings client server earlier,
      requestsSent ((pursue settings client event.payload subject comment command).run server
        earlier).2 = grounds.reads ++
          requestsSent ((grounds.invocation.apply client grounds.actions).run server
            (earlier ++ grounds.reads)).2 := by
  rcases requestsSent_pursue settings client event.payload subject comment command server
    earlier with ⟨looked, applied, same, optional, applying⟩
  have reading : request ∉ configRequests client settings.configPath ++ looked := by
    intro member
    have safe : request.method.isSafe = true := by
      rcases List.mem_append.mp member with inConfig | inLooked
      · exact safe_configRequests inConfig
      · rcases optional with rfl | ⟨actions, rfl⟩
        · cases inLooked
        · exact safe_issueRequests inLooked
    rw [changes] at safe
    cases safe
  rw [same, List.mem_append] at sent
  have isApplied := sent.resolve_left reading
  rcases applying with rfl | ⟨invocation, actions, steps, prepared, asked, rfl⟩
  · cases isApplied
  · cases empty : actions.isEmpty with
    | true =>
        obtain ⟨entry, applied⟩ := run_apply_of_isEmpty empty invocation client server
          (earlier ++ requestsSent steps)
        rw [applied] at isApplied
        cases isApplied
    | false =>
        rcases grounds_of_prepare brings empty prepared with ⟨grounds, rfl, rfl, read⟩
        exact ⟨grounds, by rw [same, ← asked, read]⟩

/-- Without a file nothing is configured. -/
theorem run_unconfigured {path : Option String} {payload : Value} {server : Server}
    {earlier : List Request} {context : String}
    (located : contextOf payload = .ok context)
    (without : path.filter (· != "") = none ∨
      ∃ file request octets, path = some file ∧ client.request (.fetchFile file) = .ok request ∧
        server earlier request = .response 404 octets) :
    ∃ actions steps, (readActions client path payload command).run server earlier =
      (.ok (context, actions), steps) ∧ actions.isEmpty = true := by
  have read : ∃ steps, (readConfig client path).run server earlier = (.ok .emptyMap, steps) := by
    rw [readConfig]
    rcases without with nowhere | ⟨file, request, octets, rfl, made, missing⟩
    · rw [nowhere]
      exact ⟨[], rfl⟩
    · cases named : (some file).filter (· != "") with
      | none => exact ⟨[], rfl⟩
      | some other =>
          cases (Option.filter_eq_some_iff.mp named).1
          simp only [Job.bind_eq, Job.run_bind, client.run_fetchFile, made, missing,
            Client.fileOf]
          exact ⟨_, rfl⟩
  rcases read with ⟨steps, read⟩
  rw [readActions]
  simp only [Job.bind_eq, Job.lift_eq, Job.run_bind, read, located, Run.andThen_ok,
    Job.run_ofExcept, actionsFor_emptyMap]
  exact ⟨{}, _, rfl, rfl⟩

/-- Handling an event reads first, whatever the event holds and whatever the service replies. -/
theorem handle_reads_first (event : Event) (settings : Settings) (client : Client)
    (server : Server) (earlier : List Request) :
    event.ReadsFirst settings client server earlier
      ((event.handle settings client).run server earlier) where
  ignored cause ended := by
    rcases siftedOut_or_brings event settings client with
      sifted | ⟨subject, comment, command, brings⟩
    · exact sifted.silent server earlier
    · rw [(run_of_brings brings server earlier).1] at ended
      exact (not_ignored ended).elim
  stages := by
    rcases siftedOut_or_brings event settings client with
      sifted | ⟨subject, comment, command, brings⟩
    · exact ⟨[], [], [], sifted.silent server earlier, .inl rfl, .inl rfl, .inl rfl⟩
    · rcases requestsSent_pursue settings client event.payload subject comment command server
        earlier with ⟨looked, applied, same, optional, applying⟩
      refine ⟨_, looked, applied, (run_of_brings brings server earlier).2.trans same,
        configRequests_cases client settings.configPath, ?_, ?_⟩
      · rcases optional with none | ⟨actions, rfl⟩
        · exact .inl none
        · exact issueRequests_cases client subject actions
      · rcases applying with none | ⟨invocation, actions, steps, -, asked, same⟩
        · exact .inl none
        · rw [asked] at same
          exact .inr ⟨invocation, actions, same⟩
  grounded request sent changes := by
    rcases siftedOut_or_brings event settings client with
      sifted | ⟨subject, comment, command, brings⟩
    · rw [sifted.silent server earlier] at sent
      cases sent
    · rw [(run_of_brings brings server earlier).2] at sent ⊢
      exact grounds_of_change brings sent changes
  mistaken fault failed blamed := by
    rcases siftedOut_or_brings event settings client with
      sifted | ⟨subject, comment, command, brings⟩
    · rcases sifted.ends server earlier with ⟨cause, ended⟩ | ⟨other, ended, foreign⟩
      · rw [ended] at failed
        cases failed
      · rw [ended] at failed
        cases failed
        rw [Fault.Foreign, blamed] at foreign
        cases foreign
    · rw [(run_of_brings brings server earlier).1] at failed
      rw [(run_of_brings brings server earlier).2]
      exact run_mistaken blamed failed
  resting subject comment command context actions steps brings acting empty := by
    rw [(run_of_brings brings server earlier).1, (run_of_brings brings server earlier).2]
    exact run_resting acting empty
  unconfigured command context located without := run_unconfigured located without

/-- A command on an issue, of which the copy in the event has a state and may be locked. -/
def closingComment (state : String) (locked : Bool) : Value :=
  .map [(.str "action", .str createdAction),
    (.str "issue", .map [(.str "number", .int 7), (.str "state", .str state),
      (.str "locked", .bool locked)]),
    (.str "comment", .map [(.str "body", .str "/close")]),
    (.str "sender", .map [(.str "login", .str "ada")])]

/-- A server with a configuration by which the command closes, and with an open issue. -/
def closingServer : Server := fun _ request =>
  match request.call with
  | .fetchFile _ => .response 200
      (Text.encodeUtf8 "\x7b\"content\": \"Y2xvc2U6CiAgY2xvc2U6IHRydWUK\"\x7d".toList)
  | _ => .response 200
      (Text.encodeUtf8 "\x7b\"number\": 7, \"state\": \"open\"\x7d".toList)

/-- The run of the command against this server. -/
def closingRun : Run Outcome :=
  (handle ⟨commentName, closingComment "open" false⟩ ⟨"/", some "commands.yml", 0⟩
    sampleClient).run closingServer []

/-- The issue is closed after two requests that read, and on their grounds. -/
theorem handle_reads_first_closing :
    (requestsSent closingRun.2).map Request.method = [.get, .get, .patch] ∧
      ∃ grounds : Grounds ⟨commentName, closingComment "open" false⟩
          ⟨"/", some "commands.yml", 0⟩ sampleClient closingServer [],
        requestsSent closingRun.2 = grounds.reads ++
          requestsSent ((grounds.invocation.apply sampleClient grounds.actions).run closingServer
            grounds.reads).2 := by
  have methods : (requestsSent closingRun.2).map Request.method = [.get, .get, .patch] := by
    decide +kernel
  have changed : Method.patch ∈ (requestsSent closingRun.2).map Request.method := by
    rw [methods]
    simp
  rcases List.mem_map.mp changed with ⟨request, sent, patches⟩
  constructor
  · exact methods
  · have changes : request.method.isSafe = false := by
      rw [patches]
      rfl
    exact (handle_reads_first _ _ _ _ _).grounded request sent changes

/-- A command from a sender that is no record. -/
def namelessCommand : Event :=
  ⟨commentName, .map [(.str "action", .str createdAction),
    (.str "issue", .map [(.str "number", .int 1)]),
    (.str "comment", .map [(.str "body", .str "/foo")]), (.str "sender", .str "x")]⟩

/-- Nothing is configured for the command, and still it is not completed. -/
theorem handle_namelessCommand :
    ((readActions sampleClient none namelessCommand.payload ⟨"foo", []⟩).run acceptAll []).1 =
        .ok ("issues", {}) ∧
      ((namelessCommand.handle ⟨"/", none, 0⟩ sampleClient).run acceptAll []).1 =
        .error .noSuchMember :=
  ⟨rfl, rfl⟩

end Event

end SlashBot

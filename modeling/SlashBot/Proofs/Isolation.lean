import SlashBot.Proofs.Admitted
import SlashBot.Proofs.Following
import SlashBot.Proofs.Freshness

/-!
# The sections of a configuration

A command is looked for in the section of its context and then at the top level. Two
configurations that hold the same at these places are the same for the command, and then a
comment has the same requests and the same end with both of them. Neither another section nor
the entry of another command has any influence.
-/

namespace SlashBot

/-! ## Looking up a command -/

/-- A value that counts as absent configures nothing. -/
theorem ActionSet.ofValue_of_absent {raw : Value} (absent : raw.truthy = false) :
    ofValue raw = .ok {} := by
  simp only [ofValue, absent, Bool.not_false, if_true]

/-- What counts as absent can be written down. -/
theorem Value.isWritable_of_absent {value : Value} (absent : value.truthy = false) :
    value.isWritable = true := by
  cases value with
  | int number =>
      have zero : number = 0 := by simpa [truthy] using absent
      have positive (digits : Nat) : 0 < Nat.pow 10 digits := Nat.pow_pos (by decide)
      rw [zero, isWritable]
      exact decide_eq_true (positive Number.maxDecimalDigits)
  | list items =>
      have empty : items = [] := by simpa [truthy] using absent
      rw [empty, isWritable, allWritable]
  | map entries =>
      have empty : entries = [] := by simpa [truthy] using absent
      rw [empty, isWritable, entriesWritable]
  | set items =>
      have empty : items = [] := by simpa [truthy] using absent
      rw [empty, isWritable, allWritable]
  | pair => cases absent
  | null | bool | float | str | bytes | date | timestamp => rw [isWritable]

/-- The action set that a value configures after it was shown. -/
def ActionSet.ofShown (raw : Value) : Except Fault ActionSet := do
  let _ ← raw.shown
  ofValue raw

theorem ActionSet.ofShown_of_absent {raw : Value} (absent : raw.truthy = false) :
    ofShown raw = .ok {} := by
  rw [ofShown, Value.shown, if_pos (Value.isWritable_of_absent absent), ofValue_of_absent absent]
  rfl

namespace Config

/-- Two configurations hold the same for a command in a context: the same entry in the section,
and where there is none, the same entry at the top level. Names of sections have no entry
there. -/
structure AgreeOn (first second : List (Value × Value)) (context command : String) : Prop where
  own : sectionEntry first context command = sectionEntry second context command
  flat : (sectionEntry first context command).isNull = true → command ∉ contexts →
    Value.field first command = Value.field second command

/-- Two maps hold the same under every name but one. -/
def AgreeExcept (name : String) (first second : List (Value × Value)) : Prop :=
  ∀ other, other ≠ name → Value.field first other = Value.field second other

section Lookup

variable {first second : List (Value × Value)} {context command : String}

theorem flatEntry_of_mem (isSection : command ∈ contexts) (entries : List (Value × Value)) :
    flatEntry entries command = .emptyMap := by
  rw [flatEntry, List.contains_iff_mem.mpr isSection]
  rfl

theorem flatEntry_of_not_mem (notSection : command ∉ contexts) (entries : List (Value × Value)) :
    flatEntry entries command = (Value.field entries command).orElse .emptyMap := by
  have other : contexts.contains command = false := by
    rw [Bool.eq_false_iff]
    exact mt List.contains_iff_mem.mp notSection
  rw [flatEntry, other]
  rfl

/-- At the top level an entry that counts as absent is as good as none. -/
theorem ofShown_flatEntry (notSection : command ∉ contexts) (entries : List (Value × Value)) :
    ActionSet.ofShown (flatEntry entries command) =
      ActionSet.ofShown (Value.field entries command) := by
  rw [flatEntry_of_not_mem notSection, Value.orElse]
  split
  · rfl
  · rename_i absent
    rw [ActionSet.ofShown_of_absent (Bool.eq_false_iff.mpr absent)]
    exact ActionSet.ofShown_of_absent rfl

/-- An entry in the section is all that counts. -/
theorem actionsFor_of_own (held : (sectionEntry first context command).isNull = false) :
    actionsFor (.map first) context command = .ok (sectionEntry first context command) := by
  simp only [actionsFor, held, Bool.false_eq_true, if_false]

theorem actionsFor_of_flat (missing : (sectionEntry first context command).isNull = true) :
    actionsFor (.map first) context command = .ok (flatEntry first command) := by
  simp only [actionsFor, missing, if_true]

/-- Configurations that hold the same for a command give it the same actions. -/
theorem AgreeOn.actionsFor_eq (agree : AgreeOn first second context command) :
    actionsFor (.map first) context command = actionsFor (.map second) context command := by
  have flat (missing : (sectionEntry first context command).isNull = true) :
      flatEntry first command = flatEntry second command := by
    by_cases isSection : command ∈ contexts
    · rw [flatEntry_of_mem isSection, flatEntry_of_mem isSection]
    · rw [flatEntry_of_not_mem isSection, flatEntry_of_not_mem isSection,
        agree.flat missing isSection]
  simp only [actionsFor]
  rw [← agree.own]
  split
  · rename_i missing
    rw [flat missing]
  · rfl

/-- The section of a context is found under its name alone. -/
theorem AgreeExcept.sectionEntry_eq {name : String} (agree : AgreeExcept name first second)
    (other : context ≠ name) :
    sectionEntry first context command = sectionEntry second context command := by
  rw [sectionEntry, sectionEntry, agree context other]

theorem AgreeExcept.agreeOn {name : String} (agree : AgreeExcept name first second)
    (own : sectionEntry first context command = sectionEntry second context command)
    (apart : command ∉ contexts → command ≠ name) : AgreeOn first second context command where
  own := own
  flat _ named := agree command (apart named)

end Lookup

end Config

/-! ## What a job learns from the service -/

/-- A call for the text of a file. -/
def Call.readsFile : (call : Call) → Bool
  | .fetchFile _ => true
  | _ => false

/-- Two servers give the same replies, except to requests for files. -/
def Server.AgreeButFiles (first second : Server) : Prop :=
  ∀ earlier request, request.call.readsFile = false →
    first earlier request = second earlier request

namespace Job

variable {α β : Type}

/-- The job sends no request for a file. -/
def Fileless (job : Job α) : Prop :=
  ∀ server earlier, ∀ request ∈ requestsSent (job.run server earlier).2,
    request.call.readsFile = false

/-- A job learns of the service only what it asks for. -/
theorem run_eq_of_agree {first second : Server} {property : Request → Prop} {job : Job α}
    {earlier : List Request}
    (agree : ∀ before request, property request → first before request = second before request)
    (asked : ∀ request ∈ requestsSent (job.run first earlier).2, property request) :
    job.run first earlier = job.run second earlier := by
  induction job generalizing earlier with
  | done result => rfl
  | fail fault => rfl
  | say entry next ih =>
      simp only [run]
      rw [ih asked]
  | record effect next ih =>
      simp only [run]
      rw [ih asked]
  | send request next ih =>
      simp only [run, requestsSent_sent, List.mem_cons, forall_eq_or_imp] at asked
      simp only [run]
      rw [← agree earlier request asked.1, ih _ asked.2]

theorem Silent.run_eq {job : Job α} (silent : job.Silent) (first second : Server)
    (earlier : List Request) : job.run first earlier = job.run second earlier := by
  have nothing : ∀ request ∈ requestsSent (job.run first earlier).2, False := by
    intro request sent
    rw [silent first earlier] at sent
    cases sent
  exact run_eq_of_agree (fun _ _ never => never.elim) nothing

theorem Fileless.run_eq {job : Job α} (fileless : job.Fileless) {first second : Server}
    (agree : first.AgreeButFiles second) (earlier : List Request) :
    job.run first earlier = job.run second earlier :=
  run_eq_of_agree agree (fileless first earlier)

theorem Silent.fileless {job : Job α} (silent : job.Silent) : job.Fileless := by
  intro server earlier request sent
  rw [silent server earlier] at sent
  cases sent

theorem Fileless.bind {job : Job α} {next : α → Job β} (first : job.Fileless)
    (second : ∀ result, (next result).Fileless) : (job.bind next).Fileless := by
  intro server earlier request sent
  rw [run_bind] at sent
  rcases ran : job.run server earlier with ⟨fault | result, steps⟩
  · rw [ran] at sent
    exact first server earlier request (by rw [ran]; exact sent)
  · rw [ran, Run.andThen_ok, requestsSent_append, List.mem_append] at sent
    rcases sent with inFirst | inSecond
    · exact first server earlier request (by rw [ran]; exact inFirst)
    · exact second result server _ request inSecond

end Job

namespace Event

variable {settings : Settings} {client : Client} {subject comment : Value} {command : Command}

theorem fileless_readTarget (actions : ActionSet) :
    (readTarget client subject actions).Fileless := by
  intro server earlier request sent
  rw [requestsSent_readTarget] at sent
  rcases issueRequests_cases client subject actions with none | ⟨number, made, asked, only⟩
  · rw [none] at sent
    cases sent
  · rw [only, List.mem_singleton] at sent
    rw [sent, client.request_call _ asked]
    rfl

/-- The work of a plan needs no file. -/
theorem readsFile_of_admits {target : Target} {work : Work} {call : Call}
    (admitted : target.Admits work) (asked : work.asks call) : call.readsFile = false := by
  cases admitted with
  | ask concerns =>
      cases asked
      cases call with
      | fetchFile path => cases concerns
      | _ => rfl
  | react name =>
      rcases asked with ⟨own, rfl⟩
      rfl
  | removeEach some named =>
      rcases asked with ⟨name, -, rfl⟩
      rfl
  | halt fault => cases asked

theorem fileless_conclude (invocation : Invocation) (actions : ActionSet) :
    (conclude client invocation actions).Fileless := by
  intro server earlier request sent
  have each : EachCall (fun call => call.readsFile = false) (invocation.plan actions) :=
    fun task member call asked =>
      readsFile_of_admits (invocation.admitsAll_plan actions task member) asked
  rcases Prod.mk.inj (invocation.follows_plan actions .null server earlier) with ⟨-, sameSteps⟩
  rw [requestsSent_conclude, ← requestsSent_unsaid, sameSteps] at sent
  exact each.sent sent

/-! ## Pursuing a command -/

/-- How a command is pursued with a configuration. -/
def pursueWith (settings : Settings) (client : Client) (payload subject comment : Value)
    (command : Command) (config : Value) : Job Outcome :=
  (Job.ofExcept (contextOf payload)).bind fun context =>
    (Job.ofExcept (Config.actionsFor config context command.name)).bind fun raw =>
      (Job.ofExcept raw.shown).bind fun shown =>
        (Job.tell (.detail ("Actions (" ++ context ++ "): " ++ shown))).bind fun _ =>
          (Job.ofExcept (ActionSet.ofValue raw)).bind fun actions =>
            (readTarget client subject actions).bind fun target =>
              (Job.ofExcept (senderOf payload comment)).bind fun sender =>
                conclude client ⟨command, target, context, sender, settings.draw⟩ actions

theorem pursue_eq_pursueWith (payload : Value) :
    pursue settings client payload subject comment command =
      (readConfig client settings.configPath).bind
        (pursueWith settings client payload subject comment command) := by
  rw [pursue_eq_bind, readActions]
  simp only [Job.bind_eq, Job.lift_eq, Job.pure_eq, Job.bind_assoc]
  rfl

theorem fileless_pursueWith (settings : Settings) (client : Client)
    (payload subject comment : Value) (command : Command) (config : Value) :
    (pursueWith settings client payload subject comment command config).Fileless :=
  (Job.silent_ofExcept _).fileless.bind fun _ =>
    (Job.silent_ofExcept _).fileless.bind fun _ =>
      (Job.silent_ofExcept _).fileless.bind fun _ =>
        (Job.silent_tell _).fileless.bind fun _ =>
          (Job.silent_ofExcept _).fileless.bind fun actions =>
            (fileless_readTarget actions).bind fun _ =>
              (Job.silent_ofExcept _).fileless.bind fun _ => fileless_conclude _ actions

/-- Configurations from which a command takes the same actions lead it the same way. -/
theorem pursueWith_eq {payload first second : Value}
    (same : ∀ context, contextOf payload = .ok context →
      Config.actionsFor first context command.name =
        Config.actionsFor second context command.name) :
    pursueWith settings client payload subject comment command first =
      pursueWith settings client payload subject comment command second := by
  rw [pursueWith, pursueWith]
  cases located : contextOf payload with
  | error fault => rfl
  | ok context =>
      simp only [Job.ofExcept, Job.bind]
      rw [same context located]

variable {event : Event} {server : Server} {earlier : List Request} {config : Value}

/-- Once the configuration was read, the rest of a run depends on it alone. -/
theorem run_of_read (brings : event.Brings settings subject comment command)
    (read : ((readConfig client settings.configPath).run server earlier).1 = .ok config) :
    let configured := configRequests client settings.configPath
    let run := (event.handle settings client).run server earlier
    let rest := (pursueWith settings client event.payload subject comment command config).run
      server (earlier ++ configured)
    run.1 = rest.1 ∧ requestsSent run.2 = configured ++ requestsSent rest.2 := by
  have asked := requestsSent_readConfig client settings.configPath server earlier
  dsimp only
  rw [(run_of_brings brings server earlier).1, (run_of_brings brings server earlier).2,
    pursue_eq_pursueWith, Job.run_bind]
  rcases ran : (readConfig client settings.configPath).run server earlier with ⟨ended, steps⟩
  rw [ran] at read asked
  cases read
  rw [Run.andThen_ok, ← asked]
  exact ⟨rfl, requestsSent_append steps _⟩

/-- Once the configuration was read, what it holds for the command gives the actions. -/
theorem run_readActions_of_read {context : String} {raw : Value}
    (read : ((readConfig client settings.configPath).run server earlier).1 = .ok config)
    (located : contextOf event.payload = .ok context)
    (chosen : Config.actionsFor config context command.name = .ok raw) :
    ((readActions client settings.configPath event.payload command).run server earlier).1 =
      (ActionSet.ofShown raw).map fun actions => (context, actions) := by
  rcases ran : (readConfig client settings.configPath).run server earlier with ⟨ended, steps⟩
  rw [ran] at read
  cases read
  rw [readActions]
  simp only [Job.bind_eq, Job.lift_eq, Job.run_bind, ran, located, chosen, Run.andThen_ok,
    Job.run_ofExcept, Job.run_tell, ActionSet.ofShown]
  cases raw.shown with
  | error fault => rfl
  | ok shown => cases ActionSet.ofValue raw <;> rfl

/-! ## Events -/

/-- An event brings a command, and is about something in a context. -/
structure Invokes (event : Event) (settings : Settings) (command : Command) (context : String) :
    Prop where
  brings : ∃ subject comment, event.Brings settings subject comment command
  located : contextOf event.payload = .ok context

/-- With two configurations an event has the same requests and the same end, whatever the
service replies otherwise. -/
def ActsAlike (event : Event) (settings : Settings) (client : Client)
    (first second : List (Value × Value)) : Prop :=
  ∀ (server other : Server) (earlier : List Request), server.AgreeButFiles other →
    ((readConfig client settings.configPath).run server earlier).1 = .ok (.map first) →
    ((readConfig client settings.configPath).run other earlier).1 = .ok (.map second) →
    ((event.handle settings client).run server earlier).1 =
        ((event.handle settings client).run other earlier).1 ∧
      requestsSent ((event.handle settings client).run server earlier).2 =
        requestsSent ((event.handle settings client).run other earlier).2

/-- With a configuration an event does nothing for a command: only the configuration is asked
for, and the command can only be completed without effects. -/
def Rests (event : Event) (settings : Settings) (client : Client) (command : Command)
    (config : List (Value × Value)) : Prop :=
  ∀ (server : Server) (earlier : List Request),
    ((readConfig client settings.configPath).run server earlier).1 = .ok (.map config) →
    requestsSent ((event.handle settings client).run server earlier).2 =
        configRequests client settings.configPath ∧
      ∀ outcome, ((event.handle settings client).run server earlier).1 = .ok outcome →
        outcome = .completed command []

variable {first second : List (Value × Value)} {context : String}

/-- An event acts alike with configurations that agree on its command. -/
theorem actsAlike_of_agreeOn
    (agree : ∀ command context, event.Invokes settings command context →
      Config.AgreeOn first second context command.name) :
    event.ActsAlike settings client first second := by
  intro server other earlier alike read otherRead
  rcases siftedOut_or_brings event settings client with
    sifted | ⟨subject, comment, command, brings⟩
  · rw [sifted.silent.run_eq server other earlier]
    exact ⟨rfl, rfl⟩
  · have same : pursueWith settings client event.payload subject comment command (.map first) =
        pursueWith settings client event.payload subject comment command (.map second) :=
      pursueWith_eq fun context located =>
        (agree command context ⟨⟨subject, comment, brings⟩, located⟩).actionsFor_eq
    have rest := (fileless_pursueWith settings client event.payload subject comment command
      (.map first)).run_eq alike (earlier ++ configRequests client settings.configPath)
    rw [(run_of_read brings read).1, (run_of_read brings read).2, (run_of_read brings otherRead).1,
      (run_of_read brings otherRead).2, ← same, rest]
    exact ⟨rfl, rfl⟩

/-- An event rests if what is configured for its command counts as absent. -/
theorem rests_of_absent {raw : Value} {entries : List (Value × Value)}
    (invokes : event.Invokes settings command context)
    (chosen : Config.actionsFor (.map entries) context command.name = .ok raw)
    (absent : raw.truthy = false) : event.Rests settings client command entries := by
  intro server earlier read
  rcases invokes.brings with ⟨subject, comment, brings⟩
  obtain ⟨steps, acting⟩ : ∃ steps, (readActions client settings.configPath event.payload
      command).run server earlier = (.ok (context, {}), steps) := by
    refine ⟨_, Prod.ext ?_ rfl⟩
    rw [run_readActions_of_read read invokes.located chosen,
      ActionSet.ofShown_of_absent absent]
    rfl
  rw [(run_of_brings brings server earlier).1, (run_of_brings brings server earlier).2]
  refine ⟨(run_resting acting rfl).1, ?_⟩
  intro outcome completed
  rw [(run_resting acting rfl).2] at completed
  rcases exists_of_bind_ok completed with ⟨copy, -, concluding⟩
  cases sent : senderOf event.payload comment with
  | error fault =>
      rw [sent] at concluding
      cases concluding
  | ok sender =>
      rw [sent] at concluding
      cases concluding
      rfl

/-- Something is in one of the two contexts. -/
theorem mem_contexts_of_contextOf {payload : Value} (located : contextOf payload = .ok context) :
    context ∈ Config.contexts := by
  rcases exists_of_bind_ok located with ⟨issue, -, looking⟩
  rcases exists_of_bind_ok looking with ⟨pull, -, named⟩
  cases named
  split <;> decide

theorem Brings.command_eq {otherSubject otherComment : Value} {other : Command}
    (brings : event.Brings settings subject comment command)
    (again : event.Brings settings otherSubject otherComment other) : command = other := by
  cases brings.said.symm.trans again.said
  rcases brings.read with ⟨text, line, texted, commanded, named⟩
  rcases again.read with ⟨otherText, otherLine, otherTexted, otherCommanded, otherNamed⟩
  cases texted.symm.trans otherTexted
  cases commanded.symm.trans otherCommanded
  cases named.symm.trans otherNamed
  rfl

/-- An event brings one command at most, and is in one context at most. -/
theorem Invokes.unique {other : Command} {otherContext : String}
    (invokes : event.Invokes settings command context)
    (again : event.Invokes settings other otherContext) :
    command = other ∧ context = otherContext := by
  rcases invokes.brings with ⟨subject, comment, brings⟩
  rcases again.brings with ⟨otherSubject, otherComment, otherBrings⟩
  cases invokes.located.symm.trans again.located
  exact ⟨brings.command_eq otherBrings, rfl⟩

/-- For an event with a command, agreement on this command is enough. -/
theorem Invokes.actsAlike (invokes : event.Invokes settings command context)
    (agree : Config.AgreeOn first second context command.name) :
    event.ActsAlike settings client first second := by
  apply actsAlike_of_agreeOn
  intro other otherContext again
  rcases invokes.unique again with ⟨rfl, rfl⟩
  exact agree

/-- The sections of a configuration are kept apart, and so are its two levels. -/
structure KeepsApart (event : Event) (settings : Settings) (client : Client) : Prop where
  /-- An entry in the section gives the actions. -/
  own : ∀ config command context server earlier, event.Invokes settings command context →
    ((readConfig client settings.configPath).run server earlier).1 = .ok (.map config) →
    (Config.sectionEntry config context command.name).isNull = false →
    ((readActions client settings.configPath event.payload command).run server earlier).1 =
      (ActionSet.ofShown (Config.sectionEntry config context command.name)).map
        fun actions => (context, actions)
  /-- Without one the entry at the top level does, unless the command is called like a section. -/
  flat : ∀ config command context server earlier, event.Invokes settings command context →
    ((readConfig client settings.configPath).run server earlier).1 = .ok (.map config) →
    (Config.sectionEntry config context command.name).isNull = true →
    command.name ∉ Config.contexts →
    ((readActions client settings.configPath event.payload command).run server earlier).1 =
      (ActionSet.ofShown (Value.field config command.name)).map fun actions => (context, actions)
  /-- Only what is configured for the command in its context has an influence. -/
  agreeing : ∀ first second, (∀ command context, event.Invokes settings command context →
      Config.AgreeOn first second context command.name) →
    event.ActsAlike settings client first second
  /-- The section of another context has no influence, whatever the command is called. -/
  otherSection : ∀ first second command context other, event.Invokes settings command context →
    other ∈ Config.contexts → other ≠ context → Config.AgreeExcept other first second →
    event.ActsAlike settings client first second
  /-- The entry of another command in the section has no influence. -/
  otherEntry : ∀ first second command context name, event.Invokes settings command context →
    name ≠ command.name → Config.AgreeExcept context first second →
    (∀ other ≠ name, Config.sectionEntry first context other =
      Config.sectionEntry second context other) →
    event.ActsAlike settings client first second
  /-- The entry of another command at the top level has no influence. -/
  otherFlat : ∀ first second command context name, event.Invokes settings command context →
    name ≠ command.name → name ≠ context → Config.AgreeExcept name first second →
    event.ActsAlike settings client first second
  /-- An entry in the section hides the rest of the configuration. -/
  shadowing : ∀ first second command context, event.Invokes settings command context →
    (Config.sectionEntry first context command.name).isNull = false →
    Config.sectionEntry first context command.name =
      Config.sectionEntry second context command.name →
    event.ActsAlike settings client first second
  /-- So does an entry that counts as absent, and then nothing is done. -/
  absent : ∀ config command context, event.Invokes settings command context →
    (Config.sectionEntry config context command.name).isNull = false →
    (Config.sectionEntry config context command.name).truthy = false →
    event.Rests settings client command config
  /-- A section is not run as a command. -/
  reserved : ∀ config command context, event.Invokes settings command context →
    command.name ∈ Config.contexts →
    (Config.sectionEntry config context command.name).isNull = true →
    event.Rests settings client command config

/-- Whatever the configurations are, their sections and their levels are kept apart. -/
theorem handle_keepsApart (event : Event) (settings : Settings) (client : Client) :
    event.KeepsApart settings client where
  own config command context server earlier invokes read held :=
    run_readActions_of_read read invokes.located (Config.actionsFor_of_own held)
  flat config command context server earlier invokes read missing notSection := by
    rw [run_readActions_of_read read invokes.located (Config.actionsFor_of_flat missing),
      Config.ofShown_flatEntry notSection]
  agreeing first second agree := actsAlike_of_agreeOn agree
  otherSection first second command context other invokes isSection apart agree := by
    apply invokes.actsAlike
    apply agree.agreeOn
    · exact agree.sectionEntry_eq apart.symm
    · intro notSection same
      exact notSection (same ▸ isSection)
  otherEntry first second command context name invokes apart agree entries := by
    apply invokes.actsAlike
    apply agree.agreeOn
    · exact entries command.name apart.symm
    · intro notSection same
      exact notSection (same ▸ mem_contexts_of_contextOf invokes.located)
  otherFlat first second command context name invokes apart elsewhere agree := by
    apply invokes.actsAlike
    apply agree.agreeOn
    · exact agree.sectionEntry_eq elsewhere.symm
    · intro _ same
      exact apart same.symm
  shadowing first second command context invokes held same := by
    apply invokes.actsAlike
    refine ⟨same, ?_⟩
    intro missing
    rw [held] at missing
    cases missing
  absent config command context invokes held falsy :=
    rests_of_absent invokes (Config.actionsFor_of_own held) falsy
  reserved config command context invokes isSection missing := by
    apply rests_of_absent invokes (Config.actionsFor_of_flat missing)
    rw [Config.flatEntry_of_mem isSection]
    rfl

/-- A configuration by which a command closes. It may have a section by which the same command
locks a pull request instead. -/
def closingConfig (sectioned : Bool) : List (Value × Value) :=
  (.str "close", .map [(.str "close", .bool true)]) ::
    if sectioned then [(.str "pulls", .map [(.str "close", .map [(.str "lock", .bool true)])])]
    else []

/-- What was read is this configuration. -/
def readsClosing (sectioned : Bool) : (read : Except Fault Value) → Bool
  | .ok (.map ((.str "close", .map [(.str "close", .bool true)]) :: rest)) =>
      match sectioned, rest with
      | false, [] => true
      | true, [(.str "pulls", .map [(.str "close", .map [(.str "lock", .bool true)])])] => true
      | _, _ => false
  | _ => false

theorem of_readsClosing {sectioned : Bool} {read : Except Fault Value}
    (reads : readsClosing sectioned read = true) : read = .ok (.map (closingConfig sectioned)) := by
  rw [readsClosing.eq_def] at reads
  split at reads
  · split at reads
    · rfl
    · rfl
    · cases reads
  · cases reads

/-- A server with the longer configuration, and with an open issue. -/
def sectionedServer : Server := fun earlier request =>
  match request.call with
  | .fetchFile _ => .response 200 (Text.encodeUtf8 ("\x7b\"content\": \"" ++
      "Y2xvc2U6CiAgY2xvc2U6IHRydWUKcHVsbHM6CiAgY2xvc2U6CiAgICBsb2NrOiB0cnVlCg==" ++
      "\"\x7d").toList)
  | _ => closingServer earlier request

/-- The event of this command, and its settings. -/
def closingEvent : Event := ⟨commentName, closingComment "open" false⟩

/-- The settings with which it is handled. -/
def closingSettings : Settings := ⟨"/", some "commands.yml", 0⟩

theorem invokes_closingEvent : closingEvent.Invokes closingSettings ⟨"close", []⟩ "issues" where
  brings := ⟨_, _, {
    isNew := ⟨_, rfl, rfl⟩
    about := rfl
    present := rfl
    numbered := ⟨_, rfl, rfl⟩
    said := rfl
    read := ⟨"/close", "close", rfl, by decide, by decide⟩ }⟩
  located := rfl

theorem agreeExcept_closingConfig :
    Config.AgreeExcept "pulls" (closingConfig false) (closingConfig true) := by
  intro other elsewhere
  simp [closingConfig, Value.field, Value.field?, elsewhere.symm]

theorem agreeButFiles_sectionedServer : closingServer.AgreeButFiles sectionedServer := by
  intro earlier request reads
  rw [sectionedServer]
  split
  · rename_i file
    rw [file] at reads
    cases reads
  · rfl

/-- The section of pull requests does not change what is done to an issue. -/
theorem handle_keepsApart_closing :
    Config.AgreeExcept "pulls" (closingConfig false) (closingConfig true) ∧
      ((closingEvent.handle closingSettings sampleClient).run sectionedServer []).1 =
        closingRun.1 ∧
      (requestsSent ((closingEvent.handle closingSettings sampleClient).run sectionedServer
        []).2).map Request.method = [.get, .get, .patch] := by
  have read : ((readConfig sampleClient closingSettings.configPath).run closingServer []).1 =
      .ok (.map (closingConfig false)) := of_readsClosing (by decide +kernel)
  have otherRead : ((readConfig sampleClient closingSettings.configPath).run sectionedServer
      []).1 = .ok (.map (closingConfig true)) := of_readsClosing (by decide +kernel)
  have apart := handle_keepsApart closingEvent closingSettings sampleClient
  obtain ⟨ended, asked⟩ := apart.otherSection _ _ _ _ "pulls" invokes_closingEvent (by decide)
    (by decide) agreeExcept_closingConfig _ _ [] agreeButFiles_sectionedServer read otherRead
  have methods : (requestsSent closingRun.2).map Request.method = [.get, .get, .patch] := by
    decide +kernel
  refine ⟨agreeExcept_closingConfig, ended.symm, ?_⟩
  rw [← asked]
  exact methods

end Event

end SlashBot

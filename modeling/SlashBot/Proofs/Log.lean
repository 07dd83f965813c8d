import SlashBot.Proofs.Isolation
import SlashBot.Proofs.Telling

/-!
# Lines of the log

While an event is handled, and while a delivery is checked, the log grows by whole lines if nothing
but the comment can break one. A comment that is a command never does. A comment that is none is
quoted in part, and there line feeds are replaced by spaces but other breaks are kept: an excerpt
with such a break is the one way for a comment to start a line of its own.
-/

namespace SlashBot

open Text

/-! ## Excerpts -/

/-- A break in the part of a text that is quoted, apart from the line feed. -/
def BreaksExcerpt (text : String) : Prop :=
  ∃ c ∈ text.toList.take 50, isLineBreak c = true ∧ c ≠ '\n'

/-- An excerpt is on one line exactly if the text has no such break in its front part. -/
theorem oneLine_clip_iff (text : String) :
    OneLine (clip clipLimit text) ↔ ¬ BreaksExcerpt text := by
  have points : OneLine (if ((text.toList.map fun c => if c == '\n' then ' ' else c).length : Int) >
      clipLimit then "..." else "") := by
    split <;> decide
  have whole : clip clipLimit text = String.ofList ((text.toList.map fun c =>
      if c == '\n' then ' ' else c).take 50) ++ _ := rfl
  rw [whole, oneLine_append, oneLine_ofList, ← List.map_take]
  simp only [BreaksExcerpt, not_exists, not_and]
  constructor
  · rintro ⟨front, -⟩ c member breaks notFeed
    have kept := front c (List.mem_map.mpr ⟨c, member, if_neg (by simpa using notFeed)⟩)
    rw [breaks] at kept
    cases kept
  · intro none
    refine ⟨?_, points⟩
    intro d member
    rcases List.mem_map.mp member with ⟨c, inFront, rfl⟩
    split
    · rfl
    · rename_i notFeed
      rw [Bool.eq_false_iff]
      intro breaks
      exact none c inFront breaks (by simpa using notFeed)

/-! ## From steps to lines -/

/-- The step tells nothing that breaks a line, unless it says one of these entries. -/
def Step.IsOneLineBut (breaks : Entry → Prop) (step : Step) : Prop :=
  step.IsOneLine ∨ ∃ entry, breaks entry ∧ step = .said entry

/-- A line is whole unless it shows one of these entries, whose messages have breaks. -/
theorem Console.oneLine_iff_of_mem_shown {console : Console} {breaks : Entry → Prop}
    {steps : List Step} (clock : OneLine console.clock)
    (broken : ∀ entry, breaks entry → ¬ entry.IsOneLine)
    (each : ∀ step ∈ steps, step.IsOneLineBut breaks) :
    ∀ line ∈ console.shown (entriesSaid steps),
      OneLine line ↔ ¬ ∃ entry, breaks entry ∧ console.show? entry = some line := by
  intro line member
  rcases List.mem_filterMap.mp member with ⟨entry, inEntries, shown⟩
  rcases List.mem_filterMap.mp inEntries with ⟨step, inSteps, isEntry⟩
  constructor
  · rintro plain ⟨other, breaking, same⟩
    exact broken other breaking (Console.isOneLine_of_show? plain same)
  · intro none
    cases step with
    | said other =>
        cases isEntry
        rcases each _ inSteps with plain | ⟨_, breaking, same⟩
        · exact Console.oneLine_of_show? clock plain shown
        · cases same
          exact (none ⟨_, breaking, shown⟩).elim
    | recorded effect => cases isEntry
    | sent request reply => cases isEntry

/-! ## Handling an event -/

namespace Event

/-- The text of the comment in a payload. -/
def remark (payload : Value) : Except Fault String :=
  commentOf payload >>= textOf

/-- Apart from the comment, no text breaks a line: none that is said of the event, none of the
configuration, and none of the issue that is looked up. -/
structure IsPlain (event : Event) (settings : Settings) (client : Client) (server : Server)
    (earlier : List Request) : Prop where
  name : OneLine event.name
  action : ∀ action, event.payload.entry "action" = .ok action → OneLine action.display
  number : ∀ subject number, subjectOf event.payload = .ok subject →
    subject.entry "number" = .ok number → OneLine number.display
  config : ∀ config, ((readConfig client settings.configPath).run server earlier).1 = .ok config →
    config.IsPlain
  issue : ∀ subject copy record, subjectOf event.payload = .ok subject →
    Target.ofRecord subject = .ok copy →
    ((client.fetchIssue copy.number).run server
      (earlier ++ configRequests client settings.configPath)).1 = .ok record → record.IsPlain

/-- The entries with a break: one quotes a comment that is no command, and one names a file that is
not there. -/
inductive Breaks (event : Event) (settings : Settings) : (entry : Entry) → Prop where
  | excerpt {text : String} (told : remark event.payload = .ok text)
      (idle : Command.ofComment? settings.trigger text = none) (broken : BreaksExcerpt text) :
      Breaks event settings
        (.detail ("Comment \"" ++ clip clipLimit text ++ "\" is not a slash command"))
  | missing {path : String} (configured : settings.configPath = some path)
      (broken : ¬ OneLine path) :
      Breaks event settings
        (.detail ("Config file \"" ++ path ++ "\" not found, using empty config"))

theorem Breaks.not_isOneLine {event : Event} {settings : Settings} {entry : Entry}
    (breaks : event.Breaks settings entry) : ¬ entry.IsOneLine := by
  intro plain
  cases breaks with
  | excerpt told idle broken =>
      rw [Entry.IsOneLine, oneLine_append, oneLine_append, oneLine_clip_iff] at plain
      exact plain.1.2 broken
  | missing configured broken =>
      rw [Entry.IsOneLine, oneLine_append, oneLine_append] at plain
      exact broken plain.1.2

/-- A step while the event is handled. -/
def Takes (event : Event) (settings : Settings) : (step : Step) → Prop :=
  Step.IsOneLineBut (event.Breaks settings)

variable {event : Event} {settings : Settings} {client : Client} {server : Server}
  {earlier : List Request} {step : Step}

theorem takes_readConfig :
    (readConfig client settings.configPath).Keeps (event.Takes settings) := by
  rw [readConfig]
  cases named : settings.configPath.filter (· != "") with
  | none => exact Job.keeps_done _
  | some path =>
      have fetched : (client.fetchFile path).Keeps (event.Takes settings) := by
        intro server earlier step member
        rw [client.run_fetchFile] at member
        split at member
        · cases member
        · rw [List.mem_singleton.mp member]
          exact .inl trivial
      refine fetched.bind fun content => ?_
      cases content with
      | some content => exact Job.keeps_ofExcept _
      | none =>
          refine (Job.keeps_tell ?_).bind fun _ => Job.keeps_done _
          by_cases plain : OneLine path
          · have first : OneLine "Config file \"" := by decide
            have last : OneLine "\" not found, using empty config" := by decide
            have message : OneLine
                ("Config file \"" ++ path ++ "\" not found, using empty config") := by
              simp only [oneLine_append, first, plain, last, and_self]
            exact .inl message
          · exact .inr ⟨_, .missing (Option.filter_eq_some_iff.mp named).1 plain, rfl⟩

theorem oneLine_of_mem_contexts {context : String} (known : context ∈ Config.contexts) :
    OneLine context := by
  have every : ∀ context ∈ Config.contexts, OneLine context := by decide
  exact every context known

theorem takes_readActions {command : Command} (plain : event.IsPlain settings client server earlier)
    (member : step ∈ ((readActions client settings.configPath event.payload command).run server
      earlier).2) : event.Takes settings step := by
  rcases Job.of_mem_run_bind member with reading | ⟨config, steps, read, acting⟩
  · exact takes_readConfig server earlier step reading
  · rcases Job.of_mem_run_ofExcept acting with ⟨context, located, choosing⟩
    rcases Job.of_mem_run_ofExcept choosing with ⟨raw, chosen, showing⟩
    rcases Job.of_mem_run_ofExcept showing with ⟨shown, written, telling⟩
    have rawPlain : raw.IsPlain :=
      Config.isPlain_actionsFor (plain.config config (congrArg Prod.fst read)) chosen
    have shownPlain : OneLine shown := by
      rw [Value.shown] at written
      split at written
      · cases written
        exact rawPlain.oneLine_display
      · cases written
    have first : OneLine "Actions (" := by decide
    have last : OneLine "): " := by decide
    have message : OneLine ("Actions (" ++ context ++ "): " ++ shown) := by
      simp only [oneLine_append, first, last, shownPlain,
        oneLine_of_mem_contexts (mem_contexts_of_contextOf located), and_self]
    rcases Job.of_mem_run_bind telling with told | ⟨_, _, -, normalizing⟩
    · rw [List.mem_singleton.mp told]
      exact .inl message
    · rcases Job.of_mem_run_ofExcept normalizing with ⟨actions, -, ended⟩
      cases ended

theorem keeps_readTarget (subject : Value) (actions : ActionSet) :
    (readTarget client subject actions).Keeps Step.IsOneLine := by
  refine (Job.keeps_ofExcept _).bind fun copy => ?_
  split
  · exact Job.keeps_done copy
  · exact (client.keeps_fetchIssue _).bind fun _ => Job.keeps_ofExcept _

/-- What is applied was read in this run. -/
theorem IsPlain.reads {subject comment : Value} {command : Command} {invocation : Invocation}
    {actions : ActionSet} {steps : List Step}
    (plain : event.IsPlain settings client server earlier)
    (about : subjectOf event.payload = .ok subject)
    (prepared : (prepare settings client event.payload subject comment command).run server
      earlier = (.ok (invocation, actions), steps)) :
    invocation.command = command ∧ OneLine invocation.context ∧
      (∀ name ∈ actions.reactions, OneLine name) ∧
      (actions.isEmpty = false → invocation.target.IsPlain) := by
  obtain ⟨context, target, sender, first, second, acting, looking, -, rfl, -⟩ :=
    of_prepare_ok prepared
  obtain ⟨config, raw, configSteps, read, located, chosen, normalized, asked⟩ :=
    of_readActions_ok acting
  have rawPlain : raw.IsPlain :=
    Config.isPlain_actionsFor (plain.config config (congrArg Prod.fst read)) chosen
  have context := oneLine_of_mem_contexts (mem_contexts_of_contextOf located)
  refine ⟨rfl, context, ActionSet.oneLine_reactions rawPlain normalized, ?_⟩
  intro filled
  obtain ⟨copy, record, issueSteps, copied, looked, valid, -⟩ := of_readTarget_ok filled looking
  have requests := requestsSent_readConfig client settings.configPath server earlier
  rw [read] at requests
  rw [asked, requests] at looked
  exact Target.isPlain_ofRecord
    (plain.issue subject copy record about copied (congrArg Prod.fst looked)) valid

theorem keeps_conclude {invocation : Invocation} {actions : ActionSet}
    (name : OneLine invocation.command.name) (context : OneLine invocation.context)
    (reactions : ∀ name ∈ actions.reactions, OneLine name)
    (target : actions.isEmpty = false → invocation.target.IsPlain) :
    (conclude client invocation actions).Keeps Step.IsOneLine := by
  have applying : (invocation.apply client actions).Keeps Step.IsOneLine :=
    Invocation.keeps_apply name context reactions target
  intro server earlier step member
  rcases Job.of_mem_run_bind member with applied | ⟨⟨_, effects⟩, steps, recorded, telling⟩
  · exact applying.recording server earlier step applied
  · rcases Job.of_mem_run_bind telling with told | ⟨_, _, -, ended⟩
    · rw [List.mem_singleton.mp told]
      have each : ∀ name ∈ effects.map Effect.name, OneLine name := by
        have kept := applying server earlier
        rw [Job.run_recording] at recorded
        rcases applied : (invocation.apply client actions).run server earlier with
          ⟨fault | result, taken⟩
        · rw [applied] at recorded
          cases recorded
        · rw [applied] at recorded kept
          cases recorded
          intro name member
          rcases List.mem_map.mp member with ⟨effect, inEffects, rfl⟩
          rcases List.mem_filterMap.mp inEffects with ⟨step, inSteps, isEffect⟩
          cases step with
          | recorded other =>
              cases isEffect
              exact kept _ inSteps
          | said entry => cases isEffect
          | sent request reply => cases isEffect
      have slash : OneLine "/" := by decide
      have done : OneLine " done" := by decide
      have ending : OneLine (if effects.isEmpty then " (nothing to do)" else
          ": " ++ Effect.names effects) := by
        split
        · decide
        · exact oneLine_append.mpr ⟨by decide, oneLine_intercalate (by decide) each⟩
      refine ⟨by decide, ?_⟩
      simp only [oneLine_append, slash, name, done, ending, and_self]
    · cases ended

/-- What is done for a command tells nothing that breaks a line, unless the path of the
configuration does. -/
theorem takes_carryOut {subject comment : Value} {command : Command}
    (plain : event.IsPlain settings client server earlier)
    (about : subjectOf event.payload = .ok subject) (unbroken : command.IsUnbroken)
    (member : step ∈ ((carryOut settings client event.payload subject comment command).run server
      earlier).2) : event.Takes settings step := by
  have name : OneLine command.name := unbroken.name
  rcases Job.of_mem_run_ofExcept member with ⟨number, numbered, announcing⟩
  rcases Job.of_mem_run_bind announcing with announced | ⟨_, _, announced, listing⟩
  · have first : OneLine "Command /" := by decide
    have on : OneLine " on #" := by decide
    have message : OneLine ("Command /" ++ command.name ++ " on #" ++ number.display) := by
      simp only [oneLine_append, first, name, on, plain.number subject number about numbered,
        and_self]
    rw [List.mem_singleton.mp announced]
    exact .inl ⟨by decide, message⟩
  · cases announced
    rcases Job.of_mem_run_bind listing with listed | ⟨_, _, listed, preparing⟩
    · have message : OneLine ("Command args: " ++ (Call.textList command.args).display) :=
        oneLine_append.mpr ⟨by decide, Value.oneLine_literal _⟩
      rw [List.mem_singleton.mp listed]
      exact .inl message
    · cases listed
      simp only [requestsSent_said, requestsSent_nil, List.append_nil] at preparing
      rcases Job.of_mem_run_bind preparing with reading | ⟨⟨invocation, actions⟩, _, prepared, rest⟩
      · rcases Job.of_mem_run_bind reading with acting | ⟨⟨context, actions⟩, _, -, looking⟩
        · exact takes_readActions plain acting
        · have steady : (Job.bind (readTarget client subject actions) fun target =>
              (Job.ofExcept (senderOf event.payload comment)).bind fun sender =>
                .done ((⟨command, target, context, sender, settings.draw⟩ : Invocation),
                  actions)).Keeps Step.IsOneLine :=
            (keeps_readTarget subject actions).bind fun _ => (Job.keeps_ofExcept _).bind fun _ =>
              Job.keeps_done _
          exact .inl (steady _ _ _ looking)
      · obtain ⟨rfl, context, reactions, target⟩ := plain.reads about prepared
        exact .inl (keeps_conclude name context reactions target _ _ _ rest)

/-- No step while an event is handled tells a break, but for those that are named. -/
theorem takes_handle (plain : event.IsPlain settings client server earlier)
    (member : step ∈ ((event.handle settings client).run server earlier).2) :
    event.Takes settings step := by
  rw [handle] at member
  simp only [Job.lift_eq, Job.bind_eq, Job.pure_eq] at member
  rcases Job.of_mem_run_ofExcept member with ⟨action, acted, finding⟩
  rcases Job.of_mem_run_ofExcept finding with ⟨subject, about, sifting⟩
  split at sifting
  · have slash : OneLine "/" := by decide
    have last : OneLine " → ignored (only comment created events are handled)" := by
      decide
    have message : OneLine (event.name ++ "/" ++ action.display ++
        " → ignored (only comment created events are handled)") := by
      simp only [oneLine_append, plain.name, slash, plain.action action acted, last, and_self]
    rcases Job.of_mem_run_bind sifting with told | ⟨_, _, -, ended⟩
    · rw [List.mem_singleton.mp told]
      exact .inl ⟨by decide, message⟩
    · cases ended
  · rcases Job.of_mem_run_ofExcept sifting with ⟨number, numbered, numbering⟩
    split at numbering
    · have message : OneLine "Missing issue number in payload → ignored" := by decide
      rcases Job.of_mem_run_bind numbering with told | ⟨_, _, -, ended⟩
      · rw [List.mem_singleton.mp told]
        exact .inl ⟨by decide, message⟩
      · cases ended
    · rcases Job.of_mem_run_ofExcept numbering with ⟨comment, said, reading⟩
      rcases Job.of_mem_run_ofExcept reading with ⟨text, texted, commanding⟩
      split at commanding
      · rename_i uncommanded
        rcases Job.of_mem_run_bind commanding with told | ⟨_, _, -, ended⟩
        · rw [List.mem_singleton.mp told]
          by_cases broken : BreaksExcerpt text
          · have noted : remark event.payload = .ok text := by
              rw [remark, said]
              exact texted
            have idle : Command.ofComment? settings.trigger text = none := by
              rw [Command.ofComment?, uncommanded]
              rfl
            exact .inr ⟨_, .excerpt noted idle broken, rfl⟩
          · have first : OneLine "Comment \"" := by decide
            have last : OneLine "\" is not a slash command" := by decide
            have message : OneLine
                ("Comment \"" ++ clip clipLimit text ++ "\" is not a slash command") := by
              simp only [oneLine_append, first, (oneLine_clip_iff text).mpr broken, last, and_self]
            exact .inl message
        · cases ended
      · rename_i line given
        split at commanding
        · cases commanding
        · rename_i command named
          exact takes_carryOut plain about (Command.isUnbroken given named) commanding

end Event

/-! ## Checking a delivery -/

namespace Delivery

/-- Apart from the comment, no text that a delivery brings breaks a line. -/
structure IsPlain (delivery : Delivery) : Prop where
  name : ∀ name, delivery.header? "x-github-event" = some name → OneLine name
  action : ∀ payload action, delivery.payload? = .ok payload →
    payload.entry "action" = .ok action → OneLine action.display
  repository : ∀ payload repository, delivery.payload? = .ok payload →
    repositoryOf payload = .ok repository → OneLine repository.display

/-- The entry with a break: it quotes a comment that is no command. -/
inductive Breaks (delivery : Delivery) (environment : Environment) : (entry : Entry) → Prop where
  | excerpt {payload : Value} {text : String} (received : delivery.payload? = .ok payload)
      (told : Event.remark payload = .ok text)
      (idle : Command.ofComment? environment.trigger text = none) (broken : BreaksExcerpt text) :
      Breaks delivery environment
        (.note "·" ("[WH] " ++ ("Comment \"" ++ clip clipLimit text ++
          "\" → not a slash command")))

theorem Breaks.not_isOneLine {delivery : Delivery} {environment : Environment} {entry : Entry}
    (breaks : delivery.Breaks environment entry) : ¬ entry.IsOneLine := by
  intro plain
  cases breaks with
  | excerpt received told idle broken =>
      rw [Entry.note, Entry.IsOneLine, oneLine_append, oneLine_append, oneLine_append,
        oneLine_clip_iff] at plain
      exact plain.2.2.1.2 broken

/-- A step while the delivery is checked. -/
def Takes (delivery : Delivery) (environment : Environment) : (step : Step) → Prop :=
  Step.IsOneLineBut (delivery.Breaks environment)

variable {delivery : Delivery} {environment : Environment}

theorem keeps_ignore {message reason : String} (plain : OneLine message) :
    (ignore message reason).Keeps Step.IsOneLine :=
  (Job.keeps_tell ⟨by decide, oneLine_append.mpr ⟨by decide, plain⟩⟩).bind fun _ =>
    Job.keeps_done _

theorem takes_sift {repository name : String} {payload : Value} (named : OneLine name)
    (located : OneLine repository) (received : delivery.payload? = .ok payload)
    (action : ∀ action, payload.entry "action" = .ok action → OneLine action.display) :
    (sift environment.trigger repository ⟨name, payload⟩).Keeps
      (delivery.Takes environment) := by
  intro server earlier step member
  rw [sift] at member
  simp only [Job.lift_eq, Job.bind_eq, Job.pure_eq] at member
  rcases Job.of_mem_run_ofExcept member with ⟨acted, given, sifting⟩
  split at sifting
  · have slash : OneLine "/" := by decide
    have last : OneLine " → ignored" := by decide
    have message : OneLine (name ++ "/" ++ acted.display ++ " → ignored") := by
      simp only [oneLine_append, named, slash, action acted given, last, and_self]
    exact .inl (keeps_ignore message _ _ _ sifting)
  · rcases Job.of_mem_run_ofExcept sifting with ⟨comment, said, reading⟩
    rcases Job.of_mem_run_ofExcept reading with ⟨text, texted, commanding⟩
    have noted : Event.remark payload = .ok text := by
      rw [Event.remark, said]
      exact texted
    split at commanding
    · rename_i idle
      by_cases broken : BreaksExcerpt text
      · rcases Job.of_mem_run_bind commanding with told | ⟨_, _, -, ended⟩
        · rw [List.mem_singleton.mp told]
          exact .inr ⟨_, .excerpt received noted idle broken, rfl⟩
        · cases ended
      · have first : OneLine "Comment \"" := by decide
        have last : OneLine "\" → not a slash command" := by decide
        have message : OneLine
            ("Comment \"" ++ clip clipLimit text ++ "\" → not a slash command") := by
          simp only [oneLine_append, first, (oneLine_clip_iff text).mpr broken, last, and_self]
        exact .inl (keeps_ignore message _ _ _ commanding)
    · rename_i command brought
      have called : OneLine command.name := by
        rcases Option.bind_eq_some_iff.mp brought with ⟨line, commanded, read⟩
        exact (Command.isUnbroken commanded read).name
      have first : OneLine "[WH] Queued /" := by decide
      have on : OneLine " on " := by decide
      have message : OneLine ("[WH] Queued /" ++ command.name ++ " on " ++ repository) := by
        simp only [oneLine_append, first, called, on, located, and_self]
      rcases Job.of_mem_run_bind commanding with told | ⟨_, _, -, ended⟩
      · rw [List.mem_singleton.mp told]
        exact .inl ⟨by decide, message⟩
      · cases ended

theorem IsPlain.takes_check (plain : delivery.IsPlain) :
    (delivery.check environment).Keeps (delivery.Takes environment) := by
  intro server earlier step member
  rw [check] at member
  simp only [Job.lift_eq, Job.bind_eq, Job.pure_eq] at member
  rcases Job.of_mem_run_ofExcept member with ⟨accepted, -, checking⟩
  split at checking
  · have message : OneLine "[WH] Signature verification failed" := by decide
    rcases Job.of_mem_run_bind checking with told | ⟨_, _, -, ended⟩
    · rw [List.mem_singleton.mp told]
      exact .inl ⟨by decide, message⟩
    · cases ended
  · split at checking
    · rename_i entries failed
      have each : ∀ entry ∈ entries, entry.IsOneLine := by
        rw [payload?] at failed
        split at failed
        · cases failed
        · cases failed
          exact List.forall_mem_nil _
        · cases failed
          have message : OneLine "[WH] Request body is not valid JSON" := by decide
          rw [List.forall_mem_singleton]
          exact ⟨by decide, message⟩
      have telling : (entries.forM Job.tell).Keeps Step.IsOneLine :=
        Job.keeps_forM fun entry member => Job.keeps_tell (each entry member)
      exact .inl ((telling.bind fun _ => Job.keeps_done _) _ _ _ checking)
    · rename_i payload received
      rcases Job.of_mem_run_ofExcept checking with ⟨repository, located, sifting⟩
      have named : OneLine ((delivery.header? "x-github-event").getD "") := by
        cases given : delivery.header? "x-github-event" with
        | none => decide
        | some name => exact plain.name name given
      split at sifting
      · have last : OneLine " without repository → ignored" := by decide
        exact .inl (keeps_ignore (oneLine_append.mpr ⟨named, last⟩) _ _ _ sifting)
      · exact takes_sift named (plain.repository payload repository received located) received
          (fun action => plain.action payload action received) _ _ _ sifting

theorem IsPlain.takes_route (plain : delivery.IsPlain) :
    (delivery.route environment).Keeps (delivery.Takes environment) := by
  rw [route]
  split
  · split <;> exact Job.keeps_done _
  · split
    · split
      · refine plain.takes_check.attempt.bind fun checked => ?_
        cases checked <;> exact Job.keeps_done _
      · exact Job.keeps_done _
    · exact Job.keeps_done _

end Delivery

/-! ## The log as it is shown -/

/-- The lines that are shown of a run, with the time in seconds. -/
def logLines {α : Type} (environment : Environment) (seconds : Nat) (run : Run α) : List String :=
  (Console.ofEnvironment environment (Console.clockText seconds)).shown (entriesSaid run.2)

/-- While an event is handled and while a delivery is checked, a line of the log is broken exactly
if it quotes a break of a comment that is no command, or names a path with a break. -/
theorem oneLine_logLines (event : Event) (settings : Settings) (client : Client)
    (delivery : Delivery) (environment : Environment) (seconds : Nat) (server : Server)
    (earlier : List Request) (plain : event.IsPlain settings client server earlier)
    (delivered : delivery.IsPlain) :
    let console := Console.ofEnvironment environment (Console.clockText seconds)
    (∀ line ∈ logLines environment seconds ((event.handle settings client).run server earlier),
      OneLine line ↔ ¬ ∃ entry, event.Breaks settings entry ∧ console.show? entry = some line) ∧
    ∀ line ∈ logLines environment seconds ((delivery.route environment).run server earlier),
      OneLine line ↔
        ¬ ∃ entry, delivery.Breaks environment entry ∧ console.show? entry = some line := by
  intro console
  have clock : OneLine console.clock := Console.oneLine_clockText seconds
  have handled : ∀ step ∈ ((event.handle settings client).run server earlier).2,
      step.IsOneLineBut (event.Breaks settings) :=
    fun step member => Event.takes_handle plain member
  have checked : ∀ step ∈ ((delivery.route environment).run server earlier).2,
      step.IsOneLineBut (delivery.Breaks environment) := delivered.takes_route server earlier
  rw [logLines, logLines]
  constructor
  · exact Console.oneLine_iff_of_mem_shown clock (fun _ breaks => breaks.not_isOneLine) handled
  · exact Console.oneLine_iff_of_mem_shown clock (fun _ breaks => breaks.not_isOneLine) checked

/-- The value that was read, if any, is plain. -/
def readsPlain : (read : Except Fault Value) → Bool
  | .ok value => decide value.IsPlain
  | .error _ => true

theorem isPlain_of_readsPlain {read : Except Fault Value} {value : Value}
    (plain : readsPlain read = true) (found : read = .ok value) : value.IsPlain := by
  rw [found] at plain
  exact of_decide_eq_true plain

theorem isPlain_closingEvent :
    Event.closingEvent.IsPlain Event.closingSettings sampleClient Event.closingServer [] where
  name := by decide
  action action acted := by
    cases acted
    decide
  number subject number about numbered := by
    cases about
    cases numbered
    decide
  config config := isPlain_of_readsPlain (by decide +kernel)
  issue subject copy record about copied := by
    cases about
    cases copied
    exact isPlain_of_readsPlain (by decide +kernel)

/-- The header and the payload of the delivery are plain, where they tell of its event. -/
def Delivery.announcesPlain (delivery : Delivery) : Bool :=
  (delivery.header? "x-github-event").all (fun name => decide (OneLine name)) &&
    match delivery.payload? with
    | .ok payload => readsPlain (payload.entry "action") && readsPlain (repositoryOf payload)
    | .error _ => true

theorem Delivery.isPlain_of_announcesPlain {delivery : Delivery}
    (plain : delivery.announcesPlain = true) : delivery.IsPlain := by
  rcases Bool.and_eq_true_iff.mp plain with ⟨named, told⟩
  constructor
  · intro name given
    rw [given] at named
    exact of_decide_eq_true named
  · intro payload action received acted
    rw [received] at told
    exact (isPlain_of_readsPlain (Bool.and_eq_true_iff.mp told).1 acted).oneLine_display
  · intro payload repository received located
    rw [received] at told
    exact (isPlain_of_readsPlain (Bool.and_eq_true_iff.mp told).2 located).oneLine_display

/-- The delivery of a command on an issue has a whole line in the log, which quotes no break. -/
theorem oneLine_logLines_closing :
    Event.closingEvent.IsPlain Event.closingSettings sampleClient Event.closingServer [] ∧
      closingDelivery.IsPlain ∧
      logLines [] 11045 ((closingDelivery.route []).run Event.closingServer []) =
        ["[03:04:05] 📥 [WH] Queued /close on octo/garden"] ∧
      ¬ ∃ entry, closingDelivery.Breaks [] entry ∧
        (Console.ofEnvironment [] (Console.clockText 11045)).show? entry =
          some "[03:04:05] 📥 [WH] Queued /close on octo/garden" := by
  have delivered : closingDelivery.IsPlain :=
    Delivery.isPlain_of_announcesPlain (by decide +kernel)
  have shown : logLines [] 11045 ((closingDelivery.route []).run Event.closingServer []) =
      ["[03:04:05] 📥 [WH] Queued /close on octo/garden"] := by
    decide +kernel
  refine ⟨isPlain_closingEvent, delivered, shown, ?_⟩
  have whole := (oneLine_logLines Event.closingEvent Event.closingSettings sampleClient
    closingDelivery [] 11045 Event.closingServer [] isPlain_closingEvent delivered).2
  rw [shown, List.forall_mem_singleton] at whole
  exact whole.mp (by decide)

/-- A delivery of a comment that is no command and has a carriage return in it. -/
def returningDelivery : Delivery :=
  { method := "POST"
    path := "/webhook/github"
    headers := [("X-GitHub-Event", "issue_comment")]
    body := encodeUtf8 ("\x7b\"action\": \"created\", " ++
      "\"repository\": \x7b\"full_name\": \"octo/repo\"\x7d, " ++
      "\"issue\": \x7b\"number\": 7\x7d, " ++
      "\"comment\": \x7b\"body\": \"thanks\\r::error::owned\"\x7d\x7d").toList }

/-- Its log line is broken by the carriage return. -/
theorem route_returningDelivery :
    returningDelivery.IsPlain ∧
      logLines [] 11045 ((returningDelivery.route []).run Event.closingServer []) =
        ["[03:04:05] · [WH] Comment \"thanks\r::error::owned\" → not a slash command"] ∧
      ¬ OneLine "[03:04:05] · [WH] Comment \"thanks\r::error::owned\" → not a slash command" :=
  ⟨Delivery.isPlain_of_announcesPlain (by decide +kernel), by decide +kernel, by decide⟩

end SlashBot

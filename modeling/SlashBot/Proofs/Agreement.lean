import SlashBot.CommandLine.Session
import SlashBot.Proofs.Handling
import SlashBot.Proofs.Octets
import SlashBot.Proofs.Signature

/-!
# Deliveries and sessions

An event can reach the bot as a delivery or as the file of a workflow. A delivery is checked
in its own way before its event is queued, but the check lets every command pass: what it
turns away would be ignored, or fail, without a request. So the service gets the same requests
either way, and a session reports the command that a delivery was answered with, unless the
event has no subject with a number or the command fails.
-/

namespace SlashBot

open CommandLine Text

/-! ## The check of a delivery -/

namespace Event

/-- An event offers a command: it tells of a new comment, and the first line of the comment is
the command. -/
structure Offers (event : Event) (trigger : String) (comment : Value) (command : Command) :
    Prop where
  isNew : ∃ action, event.payload.entry "action" = .ok action ∧ event.isNewComment action = true
  said : commentOf event.payload = .ok comment
  read : ∃ text, textOf comment = .ok text ∧ Command.ofComment? trigger text = some command

/-- An event is about nothing: it has no subject, or its subject has no number. -/
def Subjectless (event : Event) : Prop :=
  ∃ subject, subjectOf event.payload = .ok subject ∧ (subject.truthy = false ∨
    ∃ number, subject.entry "number" = .ok number ∧ number.isNull = true)

variable {event : Event} {settings : Settings} {client : Client} {subject comment : Value}
  {command : Command} {trigger repository : String}

/-- What an event brings, it also offers. -/
theorem Brings.offers (brings : event.Brings settings subject comment command) :
    event.Offers settings.trigger comment command := by
  obtain ⟨text, line, texted, commanded, named⟩ := brings.read
  refine ⟨brings.isNew, brings.said, text, texted, ?_⟩
  rw [Command.ofComment?, commanded]
  exact named

/-- What an event offers is queued. -/
theorem sift_of_offers (offers : event.Offers trigger comment command) :
    Delivery.sift trigger repository event =
      .say (.note "📥" ("[WH] Queued /" ++ command.name ++ " on " ++ repository))
        (.done (.queued command, some ⟨repository, event⟩)) := by
  obtain ⟨⟨action, acted, isNew⟩, said, text, texted, commanded⟩ := offers
  simp [Delivery.sift, acted, isNew, said, texted, commanded, Job.ofExcept, Job.bind, Job.tell]

/-- An event that offers nothing is turned away. -/
theorem sift_of_not_offers (nothing : ∀ comment command, ¬ event.Offers trigger comment command) :
    (∃ entry reason, Delivery.sift trigger repository event =
      .say entry (.done (.ignored reason, none))) ∨
    ∃ fault, Delivery.sift trigger repository event = .fail fault := by
  rw [Delivery.sift]
  simp only [Job.lift_eq, Job.bind_eq, Job.pure_eq]
  cases acted : event.payload.entry "action" with
  | error fault => exact .inr ⟨fault, rfl⟩
  | ok action =>
      simp only [Job.ofExcept, Job.bind]
      cases isNew : event.isNewComment action with
      | false => exact .inl ⟨_, _, rfl⟩
      | true =>
          cases said : commentOf event.payload with
          | error fault => exact .inr ⟨fault, rfl⟩
          | ok comment =>
              cases texted : textOf comment with
              | error fault => exact .inr ⟨fault, by simp [texted, Job.bind]⟩
              | ok text =>
                  cases commanded : Command.ofComment? trigger text with
                  | none => exact .inl ⟨_, _, by simp [texted, commanded, Job.bind]; rfl⟩
                  | some command =>
                      exact absurd ⟨⟨action, acted, isNew⟩, said, text, texted, commanded⟩
                        (nothing comment command)

/-! ## The handling of an offered command -/

/-- A command that is offered is brought, or the event is about nothing and ignored, or it
cannot be read. -/
theorem handle_of_offers {entries : List (Value × Value)} (record : event.payload = .map entries)
    (offers : event.Offers settings.trigger comment command) :
    (∃ subject, event.Brings settings subject comment command) ∨
      (event.Subjectless ∧ ∃ entry cause,
        event.handle settings client = .say entry (.done (.ignored cause))) ∨
      ∃ fault, event.handle settings client = .fail fault := by
  obtain ⟨⟨action, acted, isNew⟩, said, text, texted, commanded⟩ := offers
  obtain ⟨line, first, named⟩ := Option.bind_eq_some_iff.mp commanded
  have about : ∃ subject, subjectOf event.payload = .ok subject := by
    rw [record]
    exact ⟨_, rfl⟩
  obtain ⟨subject, about⟩ := about
  cases present : subject.truthy with
  | false =>
      refine .inr (.inl ⟨⟨subject, about, .inl present⟩, ?_⟩)
      simp only [handle, acted, about, isNew, present, Job.lift_eq, Job.bind_eq, Job.pure_eq,
        Job.ofExcept, Job.bind]
      exact ⟨_, _, rfl⟩
  | true =>
      cases numbered : subject.entry "number" with
      | error fault =>
          refine .inr (.inr ⟨fault, ?_⟩)
          simp [handle, acted, about, isNew, present, numbered, Job.ofExcept, Job.bind]
      | ok number =>
          cases missing : number.isNull with
          | true =>
              refine .inr (.inl ⟨⟨subject, about, .inr ⟨number, numbered, missing⟩⟩, ?_⟩)
              simp only [handle, acted, about, isNew, present, numbered, missing, Job.lift_eq,
                Job.bind_eq, Job.pure_eq, Job.ofExcept, Job.bind]
              exact ⟨_, _, rfl⟩
          | false =>
              exact .inl ⟨subject, ⟨action, acted, isNew⟩, about, present,
                ⟨number, numbered, missing⟩, said, text, line, texted, first, named⟩

/-- A command that is brought is completed, if its handling ends well. -/
theorem completed_of_brings (brings : event.Brings settings subject comment command)
    {server : Server} {earlier : List Request} {outcome : Outcome}
    (ended : ((event.handle settings client).run server earlier).1 = .ok outcome) :
    ∃ applied, outcome = .completed command applied := by
  rw [(run_of_brings brings server earlier).1, pursue] at ended
  rw [Job.run_bind] at ended
  rcases prepared : (prepare settings client event.payload subject comment command).run server
    earlier with ⟨fault | ⟨invocation, actions⟩, steps⟩
  · rw [prepared] at ended
    cases ended
  · obtain ⟨context, target, sender, -, -, -, -, -, rfl, -⟩ := of_prepare_ok prepared
    rw [prepared, Run.andThen_ok, outcome_conclude] at ended
    rcases applied : (Invocation.apply _ client actions).run server
      (earlier ++ requestsSent steps) with ⟨fault | done, applied⟩
    · rw [applied] at ended
      cases ended
    · rw [applied] at ended
      cases ended
      exact ⟨_, rfl⟩

end Event

namespace Queued

variable (queued : Queued) {environment : Environment} (draw : Int) (server : Server)
  (earlier : List Request)

/-- An event that offers no command is handled without a request, and nothing is completed. -/
theorem run_carryOut_of_not_offers
    (nothing : ∀ comment command, ¬ queued.event.Offers environment.trigger comment command) :
    let run := (queued.carryOut environment draw).run server earlier
    requestsSent run.2 = [] ∧
      ∀ outcome, run.1 = .ok outcome → ∃ cause, outcome = .ignored cause := by
  simp only [carryOut, Job.lift_eq, Job.bind_eq]
  cases Client.ofEnvironment environment queued.repository none with
  | error fault =>
      refine ⟨rfl, ?_⟩
      intro outcome ended
      cases ended
  | ok client =>
      have sifted : Event.SiftedOut
          (queued.event.handle (settings environment draw) client) := by
        apply Event.siftedOut_of_not_brings
        intro subject comment command brings
        exact nothing comment command brings.offers
      refine ⟨sifted.silent server earlier, ?_⟩
      intro outcome ended
      rcases sifted.ends server earlier with ⟨cause, ignored⟩ | ⟨fault, failed, -⟩
      · have same := ignored.symm.trans ended
        exact ⟨cause, (Except.ok.inj same).symm⟩
      · have same := failed.symm.trans ended
        cases same

/-- The handling of an offered command fails, or the event is about nothing and ignored, or the
command is completed. -/
theorem run_carryOut_of_offers {entries : List (Value × Value)} {comment : Value}
    {command : Command} (record : queued.event.payload = .map entries)
    (offers : queued.event.Offers environment.trigger comment command) :
    let run := (queued.carryOut environment draw).run server earlier
    (∃ fault, run.1 = .error fault) ∨
      (queued.event.Subjectless ∧ ∃ cause, run.1 = .ok (.ignored cause)) ∨
      ∃ applied, run.1 = .ok (.completed command applied) := by
  simp only [carryOut, Job.lift_eq, Job.bind_eq]
  cases Client.ofEnvironment environment queued.repository none with
  | error fault => exact .inl ⟨fault, rfl⟩
  | ok client =>
      simp only [Job.ofExcept, Job.bind]
      have offered : queued.event.Offers (settings environment draw).trigger comment command :=
        offers
      rcases Event.handle_of_offers record offered with
        ⟨subject, brings⟩ | ⟨subjectless, entry, cause, handled⟩ | ⟨fault, handled⟩
      · cases ended : ((queued.event.handle (settings environment draw) client).run server
          earlier).1 with
        | error fault => exact .inl ⟨fault, rfl⟩
        | ok outcome =>
            obtain ⟨applied, rfl⟩ := Event.completed_of_brings brings ended
            exact .inr (.inr ⟨applied, rfl⟩)
      · rw [handled]
        exact .inr (.inl ⟨subjectless, cause, rfl⟩)
      · rw [handled]
        exact .inl ⟨fault, rfl⟩

end Queued

/-! ## Deliveries and sessions of one event -/

/-- A delivery and a session are given the same event of a repository, in the same environment:
without a secret, and with one path for the configuration. What the session reports goes to a
file. -/
structure GivenSame (delivery : Delivery) (surroundings : Surroundings) (choices : Choices)
    (event : Event) (repository output : String) : Prop where
  posted : delivery.IsPosted
  delivered : (delivery.header? "x-github-event").getD "" = event.name
  started : surroundings.chosen choices.event "GITHUB_EVENT_NAME" = event.name
  record : ∃ entries, event.payload = .map entries ∧ (∃ text,
    Json.ofText text = .ok (.map entries) ∧ delivery.body = encodeUtf8 text.toList ∧
    surroundings.file? (surroundings.eventPath choices) = some text) ∧
    ∃ owner, Value.field entries "repository" = .map owner ∧
      Value.field owner "full_name" = .str repository
  located : surroundings.eventPath choices ≠ ""
  named : repository ≠ ""
  opened : surroundings.chosen choices.repository "GITHUB_REPOSITORY" = repository
  unguarded : surroundings.environment.nonempty? Signature.secretName = none
  configured : ∃ path, surroundings.environment.get? "CONFIG_FILE" = some path ∧ path ≠ ""
  unchosen : choices.config.filter (· != "") = none
  unset : surroundings.environment.nonempty? "INPUT_CONFIG_FILE" = none
  reports : surroundings.environment.nonempty? "GITHUB_OUTPUT" = some output

namespace GivenSame

variable {delivery : Delivery} {surroundings : Surroundings} {choices : Choices} {event : Event}
  {repository output : String}
  (same : GivenSame delivery surroundings choices event repository output)

include same

/-- The check of the delivery is the sifting of the event. -/
theorem check_eq : delivery.check surroundings.environment =
    Delivery.sift surroundings.environment.trigger repository event := by
  obtain ⟨entries, payload, ⟨text, read, body, -⟩, owner, held, full⟩ := same.record
  have accepted : Signature.accepts (surroundings.environment.get? "GITHUB_WEBHOOK_SECRET")
      delivery.body (delivery.header? "x-hub-signature-256") = .ok true := by
    have unguarded := same.unguarded
    rw [Environment.nonempty?, Signature.secretName] at unguarded
    rw [Signature.accepts, unguarded]
  have parsed : delivery.payload? = .ok (.map entries) := by
    rw [Delivery.payload?, body, Json.ofOctets_encodeUtf8 read]
  have filled : (Value.map owner).truthy = true := by
    cases owner with
    | nil => cases full
    | cons first more => rfl
  have located : Delivery.repositoryOf (.map entries) = .ok (.str repository) := by
    simp only [Delivery.repositoryOf, Value.entry, held, bind, Except.bind, Value.orElse, filled,
      if_true, full]
  have told : (Value.str repository).truthy = true := by
    simp [Value.truthy, same.named]
  have shown : (Value.str repository).display = repository := rfl
  rw [← payload] at parsed located
  simp only [Delivery.check, accepted, parsed, same.delivered, located]
  simp [told, shown, Job.ofExcept, Job.bind]

/-- Both depend on the same settings. -/
theorem settings_eq : surroundings.settings choices =
    Queued.settings surroundings.environment surroundings.draw := by
  obtain ⟨path, set, filled⟩ := same.configured
  have kept : surroundings.environment.nonempty? "CONFIG_FILE" = some path := by
    simp [Environment.nonempty?, set, filled]
  simp only [Surroundings.settings, Queued.settings, Surroundings.configPath, same.unchosen,
    same.unset, kept, set, Option.none_or, Option.getD_some]

/-- The session handles the event as the background does. -/
theorem handleEvent_eq : handleEvent surroundings choices event =
    (⟨repository, event⟩ : Queued).carryOut surroundings.environment surroundings.draw := by
  rw [handleEvent, Queued.carryOut, same.opened, same.settings_eq]

theorem event_eq : surroundings.event choices = .ok event := by
  obtain ⟨entries, payload, ⟨text, read, -, found⟩, -⟩ := same.record
  have located : (surroundings.eventPath choices == "") = false :=
    beq_eq_false_iff_ne.mpr same.located
  have parsed : surroundings.payload choices = .ok (.map entries) := by
    simp only [Surroundings.payload, located, found, read]
    rfl
  rw [Surroundings.event, parsed, same.started, ← payload]
  rfl

variable {arguments : List String} (server : Server) (earlier : List Request)

/-- The session ends as the handling of the event does, with its requests. -/
theorem run_session (ordered : Order.ofTexts false arguments = .ok (.run choices)) :
    let handling := ((⟨repository, event⟩ : Queued).carryOut surroundings.environment
      surroundings.draw).run server earlier
    let run := (session surroundings arguments).run server earlier
    requestsSent run.2 = requestsSent handling.2 ∧
      run.1 = .ok (match handling.1 with
        | .ok outcome => endingOf surroundings.environment outcome
        | .error _ => { status := 1 }) := by
  simp only [session, ordered, runEvent, same.event_eq, same.handleEvent_eq, Job.lift_eq,
    Job.bind_eq, Job.pure_eq, Job.ofExcept, Job.bind, Job.run_bind, Job.run_attempt,
    Run.andThen_ok]
  rcases ((⟨repository, event⟩ : Queued).carryOut surroundings.environment
    surroundings.draw).run server earlier with ⟨fault | outcome, steps⟩
  · simp
  · simp

/-- A delivery that offers a command is answered with it, and its requests are those of the
handling of the event. -/
theorem run_handle_of_offers {comment : Value} {command : Command}
    (offers : event.Offers surroundings.environment.trigger comment command) :
    let handling := ((⟨repository, event⟩ : Queued).carryOut surroundings.environment
      surroundings.draw).run server earlier
    let run := (delivery.handle surroundings.environment surroundings.draw).run server earlier
    run.1 = .ok (.queued command) ∧ requestsSent run.2 = requestsSent handling.2 := by
  have routed : delivery.route surroundings.environment = _ :=
    Delivery.route_of_isPosted same.posted
  rw [same.check_eq, Event.sift_of_offers offers] at routed
  simp only [Delivery.handle, routed, Job.attempt, Job.bind, Job.bind_eq, Job.pure_eq, Queued.work,
    Job.run, Job.run_bind, Job.run_attempt, Run.andThen_ok]
  simp

/-- A delivery that offers no command is answered without a request. -/
theorem run_handle_of_not_offers (nothing : ∀ comment command,
    ¬ event.Offers surroundings.environment.trigger comment command) :
    let run := (delivery.handle surroundings.environment surroundings.draw).run server earlier
    ((∃ reason, run.1 = .ok (.ignored reason)) ∨ run.1 = .ok .failure) ∧
      requestsSent run.2 = [] := by
  have routed : delivery.route surroundings.environment = _ :=
    Delivery.route_of_isPosted same.posted
  rw [same.check_eq] at routed
  rcases Event.sift_of_not_offers nothing with ⟨entry, reason, sifted⟩ | ⟨fault, sifted⟩
  · rw [sifted] at routed
    rw [Delivery.handle, routed]
    exact ⟨.inl ⟨reason, rfl⟩, rfl⟩
  · rw [sifted] at routed
    rw [Delivery.handle, routed]
    exact ⟨.inr rfl, rfl⟩

end GivenSame

/-- How the handling of a delivery and a session of the same event belong together. -/
structure RunsAgree (event : Event) (output : String) (handled : Run Answer)
    (session : Run Ending) : Prop where
  /-- The service gets the same requests. -/
  requests : requestsSent handled.2 = requestsSent session.2
  /-- The delivery is answered in one of three ways. -/
  answered : (∃ command, handled.1 = .ok (.queued command)) ∨
    (∃ reason, handled.1 = .ok (.ignored reason)) ∨ handled.1 = .ok .failure
  /-- Where the answer tells of a command, the session fails, or the event is about nothing and
  the session reports nothing, or it reports this command. -/
  queued : ∀ name input, handled.1 = .ok (.record 200 [(.str "status", .str "queued"),
      (.str "command", .str name), (.str "input", .str input)]) →
    session.1 = .ok ⟨1, none, none⟩ ∨ (event.Subjectless ∧ session.1 = .ok ⟨0, none, none⟩) ∨
      session.1 = .ok ⟨0, some (output, "command=" ++ name ++ "\nargs=" ++ input ++ "\n"), none⟩
  /-- Where the answer tells of no command, the session neither sends nor reports anything. -/
  idle : (∃ reason, handled.1 = .ok (.ignored reason)) ∨
      (∃ answer, handled.1 = .ok answer ∧ answer.status = 500) →
    requestsSent session.2 = [] ∧ ∃ ending, session.1 = .ok ending ∧ ending.output = none

/-- The payload of a comment that gives a command with an argument. -/
def closingText : String :=
  "\x7b\"action\": \"created\", \"issue\": \x7b\"number\": 7\x7d, " ++
    "\"comment\": \x7b\"body\": \"/close now\"\x7d, " ++
    "\"repository\": \x7b\"full_name\": \"octo/garden\"\x7d\x7d"

/-- The delivery of this comment. -/
def closingDelivery : Delivery :=
  { method := "POST"
    path := "/webhook/github"
    headers := [("X-GitHub-Event", "issue_comment")]
    body := encodeUtf8 closingText.toList }

/-- A workflow that was started by this comment. -/
def closingWorkflow : Surroundings :=
  { environment := [("GITHUB_TOKEN", "t"), ("CONFIG_FILE", "commands.yml"),
      ("GITHUB_OUTPUT", "out")]
    file? := fun _ => some closingText
    draw := 0 }

/-- The options of this workflow. -/
def closingChoices : Choices :=
  { event := some "issue_comment", eventPath := some "event.json",
    repository := some "octo/garden" }

/-- The name of the repository in the text of a payload, if it has one. -/
def repositoryIn? (text : String) : Option String :=
  match Json.ofText text with
  | .ok (.map entries) =>
      match Value.field entries "repository" with
      | .map owner =>
          match Value.field owner "full_name" with
          | .str name => some name
          | _ => none
      | _ => none
  | _ => none

theorem of_repositoryIn? {text name : String} (told : repositoryIn? text = some name) :
    ∃ entries owner, Json.ofText text = .ok (.map entries) ∧
      Value.field entries "repository" = .map owner ∧
      Value.field owner "full_name" = .str name := by
  rw [repositoryIn?] at told
  split at told
  · rename_i entries read
    split at told
    · rename_i owner held
      split at told
      · rename_i full
        cases told
        exact ⟨entries, owner, read, held, full⟩
      · cases told
    · cases told
  · cases told

/-- The arguments of this workflow. -/
def closingArguments : List String :=
  ["run", "--event", "issue_comment", "--event-path", "event.json", "--repo", "octo/garden"]

end SlashBot

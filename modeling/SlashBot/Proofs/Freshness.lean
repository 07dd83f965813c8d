import SlashBot.Proofs.Handling

/-!
# The copy in an event

An event comes with a copy of its subject, which may be out of date. The copy gives the
number under which the subject is looked up, and it decides whether the subject has a pull
request. What is done to the subject depends on nothing else in it: two events that tell of
the same comment are handled by the same job.
-/

namespace SlashBot

/-- A record with a member does not count as absent, and the lenient reading agrees. -/
theorem Value.of_member_ok {name : String} {record value : Value}
    (held : record.member name = .ok value) :
    record.truthy = true ∧ record.entry name = .ok value := by
  cases record with
  | map entries =>
      cases entries with
      | nil => cases held
      | cons head tail =>
          simp only [Value.member] at held
          simp only [Value.entry, Value.field]
          cases found : Value.field? (head :: tail) name with
          | none =>
              rw [found] at held
              cases held
          | some other =>
              rw [found] at held
              cases held
              exact ⟨rfl, rfl⟩
  | _ => cases held

/-- The record of a target holds its number. -/
theorem Target.member_of_ofRecord {record : Value} {target : Target}
    (built : Target.ofRecord record = .ok target) :
    record.member "number" = .ok target.number := by
  rcases exists_of_bind_ok built with ⟨number, held, building⟩
  cases record with
  | map entries =>
      rcases exists_of_bind_ok building with ⟨labels, -, withLabels⟩
      rcases exists_of_bind_ok withLabels with ⟨assignees, -, withPeople⟩
      rcases exists_of_bind_ok withPeople with ⟨author, -, complete⟩
      cases complete
      exact held
  | _ => cases held

namespace Event

/-- Two payloads tell of the same comment on the same subject. Their copies of the subject
may differ in everything but its number. -/
structure SameComment (first second : Value) : Prop where
  action : first.entry "action" = second.entry "action"
  comment : first.entry "comment" = second.entry "comment"
  sender : first.entry "sender" = second.entry "sender"
  context : contextOf first = contextOf second
  copies : ∃ firstSubject secondSubject firstCopy secondCopy,
    subjectOf first = .ok firstSubject ∧ subjectOf second = .ok secondSubject ∧
    Target.ofRecord firstSubject = .ok firstCopy ∧
    Target.ofRecord secondSubject = .ok secondCopy ∧ firstCopy.number = secondCopy.number

/-- With nothing to do, an invocation is concluded in the same way whatever its target is. -/
theorem conclude_of_isEmpty {actions : ActionSet} (empty : actions.isEmpty = true)
    (client : Client) (command : Command) (first second : Target) (context : String)
    (sender : Value) (draw : Int) :
    conclude client ⟨command, first, context, sender, draw⟩ actions =
      conclude client ⟨command, second, context, sender, draw⟩ actions := by
  simp only [conclude, Invocation.apply, empty, if_true]

section Agreeing

variable {first second firstSubject secondSubject : Value} {firstCopy secondCopy : Target}
  {settings : Settings} {client : Client}

/-- A target that is looked up does not depend on the copy. -/
theorem readTarget_eq {actions : ActionSet} (filled : actions.isEmpty = false)
    (firstBuilt : Target.ofRecord firstSubject = .ok firstCopy)
    (secondBuilt : Target.ofRecord secondSubject = .ok secondCopy)
    (number : firstCopy.number = secondCopy.number) :
    readTarget client firstSubject actions = readTarget client secondSubject actions := by
  simp only [readTarget, firstBuilt, secondBuilt, filled, Job.lift_eq, Job.bind_eq,
    Job.ofExcept, Job.bind, Bool.false_eq_true, if_false]
  rw [number]

/-- The job of a command, with what is read and what is done in one sequence. -/
theorem pursue_eq_bind (payload subject comment : Value) (command : Command) :
    pursue settings client payload subject comment command =
      (readActions client settings.configPath payload command).bind fun found =>
        (readTarget client subject found.2).bind fun target =>
          (Job.ofExcept (senderOf payload comment)).bind fun sender =>
            conclude client ⟨command, target, found.1, sender, settings.draw⟩ found.2 := by
  rw [pursue, prepare]
  simp only [Job.bind_eq, Job.lift_eq, Job.pure_eq, Job.bind_assoc]
  rfl

theorem pursue_eq (same : SameComment first second)
    (firstBuilt : Target.ofRecord firstSubject = .ok firstCopy)
    (secondBuilt : Target.ofRecord secondSubject = .ok secondCopy)
    (number : firstCopy.number = secondCopy.number) (comment : Value) (command : Command) :
    pursue settings client first firstSubject comment command =
      pursue settings client second secondSubject comment command := by
  have acting : readActions client settings.configPath first command =
      readActions client settings.configPath second command := by
    simp only [readActions]
    rw [same.context]
  have sending : senderOf first comment = senderOf second comment := by
    simp only [senderOf]
    rw [same.sender]
  rw [pursue_eq_bind, pursue_eq_bind, acting, sending]
  congr
  funext found
  -- With something to do the target is looked up, and with nothing to do it has no say.
  cases empty : found.2.isEmpty with
  | true =>
      simp only [readTarget, firstBuilt, secondBuilt, empty, Job.lift_eq, Job.bind_eq,
        Job.pure_eq, Job.ofExcept, Job.bind, if_true]
      congr
      funext sender
      exact conclude_of_isEmpty empty client command firstCopy secondCopy found.1 sender _
  | false => rw [readTarget_eq empty firstBuilt secondBuilt number]

/-- What the copy of the subject in an event says, besides its number, has no influence: the
event is handled by the same job, so it leads to the same requests and to the same end,
whatever the service replies. -/
theorem handle_eq_of_sameComment (name : String) (settings : Settings) (client : Client)
    (same : SameComment first second) :
    handle ⟨name, first⟩ settings client = handle ⟨name, second⟩ settings client := by
  rcases same.copies with ⟨firstSubject, secondSubject, firstCopy, secondCopy, firstAbout,
    secondAbout, firstBuilt, secondBuilt, number⟩
  rcases Value.of_member_ok (Target.member_of_ofRecord firstBuilt) with
    ⟨firstPresent, firstNumbered⟩
  rcases Value.of_member_ok (Target.member_of_ofRecord secondBuilt) with
    ⟨secondPresent, secondNumbered⟩
  have commenting : commentOf first = commentOf second := by
    simp only [commentOf]
    rw [same.comment]
  have carrying (comment : Value) (command : Command) :
      carryOut settings client first firstSubject comment command =
        carryOut settings client second secondSubject comment command := by
    rw [carryOut_eq firstNumbered, carryOut_eq secondNumbered, number,
      pursue_eq same firstBuilt secondBuilt number]
  simp only [handle, isNewComment, same.action, firstAbout, secondAbout, firstPresent,
    secondPresent, firstNumbered, secondNumbered, number, commenting, carrying, Job.lift_eq,
    Job.bind_eq, Job.ofExcept, Job.bind]

end Agreeing

/-- Whether the copy is open or closed and locked makes no difference. -/
theorem handle_eq_of_sameComment_closing :
    SameComment (closingComment "open" false) (closingComment "closed" true) ∧
      handle ⟨commentName, closingComment "open" false⟩ ⟨"/", some "commands.yml", 0⟩ sampleClient =
        handle ⟨commentName, closingComment "closed" true⟩ ⟨"/", some "commands.yml", 0⟩
          sampleClient :=
  have same : SameComment (closingComment "open" false) (closingComment "closed" true) :=
    ⟨rfl, rfl, rfl, rfl, _, _, _, _, rfl, rfl, rfl, rfl, rfl⟩
  ⟨same, handle_eq_of_sameComment commentName _ sampleClient same⟩

end Event

end SlashBot

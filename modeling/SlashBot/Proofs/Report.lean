import SlashBot.Proofs.Agreement
import SlashBot.Proofs.Token

/-!
# Reports

A session that completes a command appends two lines to a file of the workflow, and it does so
last. The name and the input of a command come from the first line of a comment, so neither can
break a line, and nobody can write a third one. A session that ends in any other way leaves every
file as it is.
-/

namespace SlashBot

open CommandLine Text

namespace Text

variable {text more : List Char} {c : Char}

/-! ## Lines that are appended -/

theorem lines_pair : lines ('\r' :: '\n' :: text) = [] :: lines text := rfl

theorem lines_break (broken : isLineBreak c = true)
    (notPair : ∀ rest, c = '\r' → text = '\n' :: rest → False) :
    lines (c :: text) = [] :: lines text := by
  rw [lines.eq_3 c text notPair, if_pos broken]

theorem lines_cons {line : List Char} {others : List (List Char)} (unbroken : isLineBreak c = false)
    (later : lines text = line :: others) : lines (c :: text) = (c :: line) :: others := by
  have notPair : ∀ rest, c = '\r' → text = '\n' :: rest → False := by
    rintro rest rfl
    cases unbroken
  rw [lines.eq_3 c text notPair, if_neg (by simp [unbroken]), later]

theorem lines_ne_nil (filled : text ≠ []) : lines text ≠ [] := by
  fun_cases lines text <;> simp_all

/-- A text without breaks in front of a line feed is the first line. -/
theorem lines_append_feed (unbroken : ∀ c ∈ text, isLineBreak c = false) :
    lines (text ++ '\n' :: more) = text :: lines more := by
  induction text with
  | nil => rfl
  | cons c text ih =>
      exact lines_cons (unbroken c (by simp)) (ih fun d member => unbroken d (by simp [member]))

/-- Behind a line feed new lines start. -/
theorem lines_feed_append (text more : List Char) :
    lines (text ++ '\n' :: more) = lines (text ++ ['\n']) ++ lines more := by
  have plain {c : Char} {rest : List Char} (unbroken : isLineBreak c = false)
      (later : lines (rest ++ '\n' :: more) = lines (rest ++ ['\n']) ++ lines more) :
      lines (c :: rest ++ '\n' :: more) = lines (c :: rest ++ ['\n']) ++ lines more := by
    have filled : rest ++ ['\n'] ≠ [] := by simp
    obtain ⟨line, others, first⟩ := List.exists_cons_of_ne_nil (lines_ne_nil filled)
    rw [first, List.cons_append] at later
    rw [List.cons_append, List.cons_append, lines_cons unbroken later, lines_cons unbroken first,
      List.cons_append]
  fun_induction lines text with
  | case1 => rfl
  | case2 rest ih =>
      rw [List.cons_append, List.cons_append, List.cons_append, List.cons_append, lines_pair,
        lines_pair, ih, List.cons_append]
  | case3 c rest notPair broken ih =>
      cases rest with
      | nil =>
          by_cases isReturn : c = '\r'
          · rw [isReturn]
            rfl
          · have single (text : List Char) : lines ([c] ++ text) = [] :: lines text :=
              lines_break broken fun _ same _ => isReturn same
            rw [single, single]
            rfl
      | cons d rest =>
          have single (text : List Char) :
              lines (c :: d :: rest ++ text) = [] :: lines (d :: rest ++ text) := by
            refine lines_break broken ?_
            intro more same pair
            cases pair
            exact notPair rest same rfl
          rw [single, single, ih]
          rfl
  | case4 c rest notPair notBreak none ih => exact plain (by simpa using notBreak) ih
  | case5 c rest notPair notBreak line others some ih => exact plain (by simpa using notBreak) ih

end Text

/-! ## Commands that fit on a line -/

/-- A command has a name, and neither its name nor its input can break a line. -/
structure Command.IsUnbroken (command : Command) : Prop where
  named : command.name ≠ ""
  name : ∀ c ∈ command.name.toList, isLineBreak c = false
  input : ∀ c ∈ command.input.toList, isLineBreak c = false

/-- The command of a comment has its characters from the first line. -/
theorem Command.isUnbroken {trigger body line : String} {command : Command}
    (given : commandLine? trigger body = some line)
    (named : Command.ofLine? line = some command) : command.IsUnbroken := by
  have unbroken : ∀ token ∈ Token.all line.toList, ∀ c ∈ token, isLineBreak c = false := by
    intro token among c inToken
    exact not_isLineBreak_of_commandLine? given
      (List.mem_append_right _ (Token.mem_line_of_mem_all among inToken))
  have first : command.name.toList ∈ Token.all line.toList := by simp [Command.all_eq named]
  refine ⟨?_, unbroken _ first, ?_⟩
  · intro empty
    have filled := (Token.isTrimmed_of_mem_all first).1
    rw [empty] at filled
    exact filled rfl
  · intro c member
    rw [Command.input, String.toList_intercalate] at member
    rcases of_mem_intercalate member with rfl | ⟨token, among, inToken⟩
    · rfl
    · exact unbroken token (by simp [Command.all_eq named, among]) c inToken

/-- Only a command from the first line of a comment is ever completed. -/
theorem Event.isUnbroken_of_completed {event : Event} {settings : Settings} {client : Client}
    {server : Server} {earlier : List Request} {command : Command} {applied : List Effect}
    (ended : ((event.handle settings client).run server earlier).1 =
      .ok (.completed command applied)) : command.IsUnbroken := by
  rcases siftedOut_or_brings event settings client with
    sifted | ⟨subject, comment, brought, brings⟩
  · rcases sifted.ends server earlier with ⟨cause, ignored⟩ | ⟨fault, failed, -⟩
    · cases ignored.symm.trans ended
    · cases failed.symm.trans ended
  · obtain ⟨effects, same⟩ := completed_of_brings brings ended
    cases same
    obtain ⟨text, line, -, given, named⟩ := brings.read
    exact Command.isUnbroken given named

/-! ## Files -/

namespace CommandLine

/-- The contents of files by their paths; a path may have no file. -/
abbrev Files := (path : String) → Option String

/-- Appends a text to a file, which is made if there is none. -/
def Files.append (files : Files) (path text : String) : Files :=
  fun asked => if asked = path then some ((files path).getD "" ++ text) else files asked

/-- The files after a session: one that ends well appends its output, if it has any, and a fault
leaves all files as they were. -/
def Files.after (files : Files) : (ended : Except Fault Ending) → Files
  | .error _ => files
  | .ok ending =>
      match ending.output with
      | none => files
      | some (path, text) => files.append path text

/-- The end of a session that handles an event, from the end of the handling. -/
theorem session_ends {surroundings : Surroundings} {arguments : List String} {choices : Choices}
    (ordered : Order.ofTexts false arguments = .ok (.run choices)) (server : Server)
    (earlier : List Request) :
    ((session surroundings arguments).run server earlier).1 =
      (surroundings.event choices).map fun event =>
        match ((handleEvent surroundings choices event).run server earlier).1 with
        | .ok outcome => endingOf surroundings.environment outcome
        | .error _ => { status := 1 } := by
  simp only [session, ordered, runEvent, Job.lift_eq, Job.bind_eq, Job.pure_eq]
  cases surroundings.event choices with
  | error fault => rfl
  | ok event =>
      simp only [Job.ofExcept, Job.bind, Job.run_bind, Job.run_attempt, Run.andThen_ok, Except.map]
      rcases (handleEvent surroundings choices event).run server earlier with
        ⟨fault | outcome, steps⟩ <;> rfl

theorem isUnbroken_of_handleEvent {surroundings : Surroundings} {choices : Choices} {event : Event}
    {server : Server} {earlier : List Request} {command : Command} {applied : List Effect}
    (ended : ((handleEvent surroundings choices event).run server earlier).1 =
      .ok (.completed command applied)) : command.IsUnbroken := by
  rw [handleEvent] at ended
  simp only [Job.lift_eq, Job.bind_eq] at ended
  cases opened : Client.ofEnvironment surroundings.environment
    (surroundings.chosen choices.repository "GITHUB_REPOSITORY") none with
  | error fault =>
      rw [opened] at ended
      cases ended
  | ok client =>
      rw [opened] at ended
      exact Event.isUnbroken_of_completed ended

theorem outputLines_eq (command : Command) : outputLines command =
    "command=" ++ command.name ++ "\n" ++ "args=" ++ command.input ++ "\n" := by
  have label : "\nargs=" = "\n" ++ "args=" := rfl
  rw [outputLines, label, ← String.append_assoc]

/-- The two lines by which a command is reported. -/
theorem lines_outputLines {command : Command} (unbroken : command.IsUnbroken) :
    lines (outputLines command).toList =
      [("command=" ++ command.name).toList, ("args=" ++ command.input).toList] := by
  have written : (outputLines command).toList = ("command=" ++ command.name).toList ++
      '\n' :: (("args=" ++ command.input).toList ++ ['\n']) := by
    simp [outputLines]
  have name : ∀ c ∈ ("command=" ++ command.name).toList, isLineBreak c = false := by
    rw [String.toList_append, List.forall_mem_append]
    exact ⟨by simp [isLineBreak], unbroken.name⟩
  have input : ∀ c ∈ ("args=" ++ command.input).toList, isLineBreak c = false := by
    rw [String.toList_append, List.forall_mem_append]
    exact ⟨by simp [isLineBreak], unbroken.input⟩
  rw [written, lines_append_feed name, lines_append_feed input]
  rfl

/-- Behind complete lines a report adds its two. -/
theorem lines_append_outputLines {command : Command} (unbroken : command.IsUnbroken)
    {before : List Char} (complete : before = [] ∨ before.getLast? = some '\n') :
    lines (before ++ (outputLines command).toList) = lines before ++
      [("command=" ++ command.name).toList, ("args=" ++ command.input).toList] := by
  rcases complete with rfl | ended
  · exact lines_outputLines unbroken
  · obtain ⟨front, rfl⟩ := List.getLast?_eq_some_iff.mp ended
    rw [List.append_assoc, List.singleton_append, lines_feed_append, lines_outputLines unbroken]

/-- What a session that handles an event has done to the files. -/
structure ReportsWhole (surroundings : Surroundings) (choices : Choices) (files : Files)
    (server : Server) (earlier : List Request) (ended : Except Fault Ending) : Prop where
  /-- A file that is no JSON gives no event. -/
  invalid : ∀ text fault, surroundings.eventPath choices ≠ "" →
    surroundings.file? (surroundings.eventPath choices) = some text →
    Json.ofText text = .error fault → surroundings.event choices = .error fault
  /-- Without an event the session fails and leaves the files as they were. -/
  unreadable : ∀ fault, surroundings.event choices = .error fault →
    ended = .error fault ∧ files.after ended = files
  /-- An event whose handling fails leaves the files as they were. -/
  failed : ∀ event fault, surroundings.event choices = .ok event →
    ((handleEvent surroundings choices event).run server earlier).1 = .error fault →
    ended = .ok { status := 1 } ∧ files.after ended = files
  /-- An event that is ignored leaves the files as they were. -/
  ignored : ∀ event cause, surroundings.event choices = .ok event →
    ((handleEvent surroundings choices event).run server earlier).1 = .ok (.ignored cause) →
    ended = .ok { status := 0 } ∧ files.after ended = files
  /-- A command that is completed is reported in two whole lines of one file. -/
  completed : ∀ event command applied output, surroundings.event choices = .ok event →
    ((handleEvent surroundings choices event).run server earlier).1 =
      .ok (.completed command applied) →
    surroundings.environment.nonempty? "GITHUB_OUTPUT" = some output →
    (∃ ending, ended = .ok ending ∧ ending.status = 0) ∧ command.IsUnbroken ∧
    (∃ report, report = "command=" ++ command.name ++ "\n" ++ "args=" ++ command.input ++ "\n" ∧
      files.after ended output = some ((files output).getD "" ++ report) ∧
      ∀ before : List Char, before = [] ∨ before.getLast? = some '\n' →
        lines (before ++ report.toList) = lines before ++
          [("command=" ++ command.name).toList, ("args=" ++ command.input).toList]) ∧
    ∀ other, other ≠ output → files.after ended other = files other

end CommandLine

end SlashBot

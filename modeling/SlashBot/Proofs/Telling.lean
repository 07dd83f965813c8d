import SlashBot.Proofs.Leaf
import SlashBot.Proofs.Report
import SlashBot.Proofs.Sorting

/-!
# What is told on one line

Applying an action set tells what it does. Names of labels and people that come from a command are
words, which no break can be in; the others, the reactions and the number come from the target and
from the configuration. If no text in these breaks a line, then no entry does, whatever the
arguments of the command are and whatever the service replies.
-/

namespace SlashBot

open Text Template

/-! ## Entries -/

/-- The icon and the message of an entry are on one line. -/
def Entry.IsOneLine : (entry : Entry) → Prop
  | .status icon message _ => OneLine icon ∧ OneLine message
  | .detail message => OneLine message
  | .plain text => OneLine text

namespace Console

variable {console : Console}

theorem oneLine_line {icon message : String} (clock : OneLine console.clock)
    (marked : OneLine icon) (plain : OneLine message) (dim : Bool) :
    OneLine (console.line icon message dim) := by
  have opening : OneLine "[" := by decide
  have closing : OneLine "] " := by decide
  have space : OneLine " " := by decide
  have text : OneLine ("[" ++ console.clock ++ "] " ++ icon ++ " " ++ message) := by
    simp only [oneLine_append, clock, marked, plain, opening, closing, space, and_self]
  rw [line]
  split
  · have dimmed : OneLine "\x1b[2m" := by decide
    have reset : OneLine "\x1b[0m" := by decide
    rw [oneLine_append, oneLine_append]
    exact ⟨⟨dimmed, text⟩, reset⟩
  · exact text

/-- An entry on one line is shown on one line, if the time is. -/
theorem oneLine_of_show? {entry : Entry} {line : String} (clock : OneLine console.clock)
    (plain : entry.IsOneLine) (shown : console.show? entry = some line) : OneLine line := by
  cases entry with
  | status icon message dim =>
      cases shown
      exact oneLine_line clock plain.1 plain.2 dim
  | detail message =>
      rw [show?] at shown
      split at shown
      · cases shown
        exact oneLine_line clock (by decide) plain true
      · cases shown
  | plain text =>
      cases shown
      exact plain

/-- An entry that is shown on one line is on one line. -/
theorem isOneLine_of_show? {entry : Entry} {line : String} (plain : OneLine line)
    (shown : console.show? entry = some line) : entry.IsOneLine := by
  have parts {icon message : String} {dim : Bool}
      (whole : OneLine (console.line icon message dim)) : OneLine icon ∧ OneLine message := by
    rw [Console.line] at whole
    split at whole
    · simp only [oneLine_append] at whole
      exact ⟨whole.1.2.1.1.2, whole.1.2.2⟩
    · simp only [oneLine_append] at whole
      exact ⟨whole.1.1.2, whole.2⟩
  cases entry with
  | status icon message dim =>
      cases shown
      exact parts plain
  | detail message =>
      rw [show?] at shown
      split at shown
      · cases shown
        exact (parts plain).2
      · cases shown
  | plain text =>
      cases shown
      exact plain

theorem oneLine_clockText (seconds : Nat) : OneLine (clockText seconds) := by
  have colon : OneLine ":" := by decide
  simp only [clockText, oneLine_append, oneLine_zeroFilled, colon, and_self]

end Console

/-- The step tells nothing that breaks a line, and so can no effect that it records. -/
def Step.IsOneLine : (step : Step) → Prop
  | .said entry => entry.IsOneLine
  | .recorded effect => OneLine effect.name
  | .sent .. => True

/-! ## The steps of jobs -/

namespace Job

variable {α β : Type} {property : Step → Prop} {job : Job α} {next : α → Job β}

/-- Every step that a job takes has a property, whatever the replies are. -/
def Keeps (property : Step → Prop) (job : Job α) : Prop :=
  ∀ server earlier, ∀ step ∈ (job.run server earlier).2, property step

/-- Two jobs in sequence take the steps of the first and, if it ends well, those of the second. -/
theorem of_mem_run_bind {server : Server} {earlier : List Request} {step : Step}
    (member : step ∈ ((job.bind next).run server earlier).2) :
    step ∈ (job.run server earlier).2 ∨
      ∃ result steps, job.run server earlier = (.ok result, steps) ∧
        step ∈ ((next result).run server (earlier ++ requestsSent steps)).2 := by
  rw [run_bind] at member
  rcases ran : job.run server earlier with ⟨fault | result, steps⟩
  · rw [ran] at member
    exact .inl member
  · rw [ran, Run.andThen_ok] at member
    rcases List.mem_append.mp member with before | after
    · exact .inl before
    · exact .inr ⟨result, steps, rfl, after⟩

/-- A computation takes no step. -/
theorem of_mem_run_ofExcept {outcome : Except Fault α} {server : Server} {earlier : List Request}
    {step : Step} (member : step ∈ (((ofExcept outcome).bind next).run server earlier).2) :
    ∃ result, outcome = .ok result ∧ step ∈ ((next result).run server earlier).2 := by
  cases outcome with
  | error fault => cases member
  | ok result => exact ⟨result, rfl, member⟩

theorem keeps_done (result : α) : (done result).Keeps property :=
  fun _ _ => List.forall_mem_nil _

theorem keeps_fail (fault : Fault) : (fail fault : Job α).Keeps property :=
  fun _ _ => List.forall_mem_nil _

theorem keeps_tell {entry : Entry} (holds : property (.said entry)) :
    (tell entry).Keeps property := by
  intro server earlier step member
  rw [List.mem_singleton.mp member]
  exact holds

theorem keeps_apply {effect : Effect} (holds : property (.recorded effect)) :
    (apply effect).Keeps property := by
  intro server earlier step member
  rw [List.mem_singleton.mp member]
  exact holds

theorem Keeps.bind (first : job.Keeps property) (second : ∀ result, (next result).Keeps property) :
    (job.bind next).Keeps property := by
  intro server earlier step member
  rcases of_mem_run_bind member with before | ⟨result, steps, -, after⟩
  · exact first server earlier step before
  · exact second result server _ step after

theorem keeps_ofExcept (outcome : Except Fault α) : (ofExcept outcome).Keeps property := by
  cases outcome with
  | error fault => exact keeps_fail fault
  | ok result => exact keeps_done result

/-- After a computation a job may rely on its result. -/
theorem keeps_bind_ofExcept {outcome : Except Fault α}
    (reached : ∀ result, outcome = .ok result → (next result).Keeps property) :
    ((ofExcept outcome).bind next).Keeps property := by
  cases outcome with
  | error fault => exact keeps_fail fault
  | ok result => exact reached result rfl

theorem Keeps.attempt (keeps : job.Keeps property) : job.attempt.Keeps property := by
  intro server earlier
  rw [run_attempt]
  exact keeps server earlier

theorem Keeps.recording (keeps : job.Keeps property) : job.recording.Keeps property := by
  intro server earlier
  rw [run_recording]
  exact keeps server earlier

theorem keeps_forM {items : List α} {each : α → Job Unit}
    (keeps : ∀ item ∈ items, (each item).Keeps property) : (items.forM each).Keeps property := by
  induction items with
  | nil => exact keeps_done ()
  | cons item items ih =>
      rw [List.forall_mem_cons] at keeps
      exact keeps.1.bind fun _ => ih keeps.2

theorem keeps_mapM {items : List α} {each : α → Job β}
    (keeps : ∀ item ∈ items, (each item).Keeps property) : (items.mapM each).Keeps property := by
  induction items with
  | nil => exact keeps_done []
  | cons item items ih =>
      rw [List.forall_mem_cons] at keeps
      rw [List.mapM_cons]
      exact keeps.1.bind fun _ => (ih keeps.2).bind fun _ => keeps_done _

end Job

namespace Client

variable (client : Client) (call : Call)

/-- Sending a call is not told. -/
theorem keeps_fetch : (client.fetch call).Keeps Step.IsOneLine := by
  intro server earlier step member
  rw [run_fetch] at member
  rcases client.ask_cases server earlier call with ⟨fault, asked⟩ | ⟨request, -, -, asked⟩
  · rw [asked] at member
    cases member
  · rw [asked] at member
    rw [List.mem_singleton.mp member]
    trivial

theorem keeps_order : (client.order call).Keeps Step.IsOneLine :=
  (client.keeps_fetch call).bind fun _ => Job.keeps_done ()

theorem keeps_query : (client.query call).Keeps Step.IsOneLine :=
  (client.keeps_fetch call).bind fun _ => Job.keeps_ofExcept _

theorem keeps_createComment (number : Value) (text : String) :
    (client.createComment number text).Keeps Step.IsOneLine :=
  (client.keeps_fetch _).bind fun _ => (Job.keeps_ofExcept _).bind fun _ => Job.keeps_ofExcept _

theorem keeps_fetchIssue (number : Value) : (client.fetchIssue number).Keeps Step.IsOneLine :=
  (client.keeps_fetch _).bind fun _ => Job.keeps_ofExcept _

end Client

/-! ## Invocations -/

namespace Invocation

/-- The command, the context and the target of the invocation break no line. -/
structure IsPlain (invocation : Invocation) : Prop where
  name : OneLine invocation.command.name
  context : OneLine invocation.context
  target : invocation.target.IsPlain

variable {invocation : Invocation} {client : Client} {actions : ActionSet}

theorem IsPlain.oneLine_shownNumber (plain : invocation.IsPlain) :
    OneLine invocation.shownNumber := by
  rw [shownNumber, oneLine_append]
  exact ⟨by decide, plain.target.number.oneLine_display⟩

/-- Bringing about an effect is told in one line. -/
theorem keeps_bring {effect : Effect} {wanted : Bool} {icon message : String} {work : Job Unit}
    (named : OneLine effect.name) (marked : OneLine icon) (plain : OneLine message)
    (keeps : work.Keeps Step.IsOneLine) :
    (bring effect wanted icon message work).Keeps Step.IsOneLine := by
  cases wanted with
  | false => exact Job.keeps_done ()
  | true =>
      exact (Job.keeps_tell ⟨marked, plain⟩).bind fun _ => keeps.bind fun _ =>
        Job.keeps_apply named

/-- A message about the target that starts like this. -/
theorem IsPlain.oneLine_about (plain : invocation.IsPlain) {start : String}
    (begins : OneLine start) : OneLine (start ++ invocation.shownNumber) :=
  oneLine_append.mpr ⟨begins, plain.oneLine_shownNumber⟩

/-- A message about the target that starts like this and ends with a list. -/
theorem IsPlain.oneLine_listing (plain : invocation.IsPlain) {start middle : String}
    {names : List String} (begins : OneLine start) (goesOn : OneLine middle)
    (each : ∀ name ∈ names, OneLine name) :
    OneLine (start ++ invocation.shownNumber ++ middle ++ ", ".intercalate names) := by
  rw [oneLine_append, oneLine_append]
  exact ⟨⟨plain.oneLine_about begins, goesOn⟩, oneLine_intercalate (by decide) each⟩

theorem IsPlain.keeps_applyPins (plain : invocation.IsPlain) :
    (invocation.applyPins client actions).Keeps Step.IsOneLine :=
  (keeps_bring (by decide) (by decide) (plain.oneLine_about (by decide))
    (client.keeps_query _)).bind fun _ =>
      keeps_bring (by decide) (by decide) (plain.oneLine_about (by decide)) (client.keeps_query _)

theorem keeps_react {comment : Value} {name : String} (plain : OneLine name) :
    (react client comment name).Keeps Step.IsOneLine := by
  rw [react]
  split
  · refine (client.keeps_order _).bind fun _ => Job.keeps_apply ?_
    exact oneLine_append.mpr ⟨by decide, plain⟩
  · have first : OneLine "Unknown reaction \"" := by decide
    have last : OneLine "\", skipped" := by decide
    have message : OneLine ("Unknown reaction \"" ++ name ++ "\", skipped") := by
      simp only [oneLine_append, first, plain, last, and_self]
    exact Job.keeps_tell ⟨by decide, message⟩

theorem keeps_comment {text : String} {reactions : List String}
    (plain : ∀ name ∈ reactions, OneLine name) :
    (invocation.comment client text reactions).Keeps Step.IsOneLine := by
  have named : OneLine Effect.comment.name := by decide
  exact (client.keeps_createComment _ _).bind fun _ => (Job.keeps_apply named).bind fun _ =>
    Job.keeps_forM fun name member => keeps_react (plain name member)

theorem keeps_whileUnlocked {work : Job Unit} (keeps : work.Keeps Step.IsOneLine) :
    (invocation.whileUnlocked client work).Keeps Step.IsOneLine := by
  rw [whileUnlocked]
  split
  · exact (client.keeps_order _).bind fun _ => keeps.bind fun _ => client.keeps_order _
  · exact keeps

theorem IsPlain.keeps_applyComment (plain : invocation.IsPlain)
    (reactions : ∀ name ∈ actions.reactions, OneLine name) :
    (invocation.applyComment client actions).Keeps Step.IsOneLine := by
  rw [applyComment]
  split
  · exact Job.keeps_done ()
  · refine (Job.keeps_ofExcept _).bind fun text => ?_
    exact (Job.keeps_tell ⟨by decide, plain.oneLine_about (by decide)⟩).bind fun _ =>
      keeps_whileUnlocked (keeps_comment reactions)

theorem IsPlain.keeps_applyState (plain : invocation.IsPlain) :
    (invocation.applyState client actions).Keeps Step.IsOneLine :=
  (keeps_bring (by decide) (by decide) (plain.oneLine_about (by decide))
    (client.keeps_order _)).bind fun _ =>
      keeps_bring (by decide) (by decide) (plain.oneLine_about (by decide)) (client.keeps_order _)

theorem oneLine_shownReason (reason : Option LockReason) : OneLine (shownReason reason) := by
  rcases reason with none | reason
  · decide
  · cases reason <;> decide

theorem IsPlain.keeps_applyLock (plain : invocation.IsPlain) :
    (invocation.applyLock client actions).Keeps Step.IsOneLine := by
  have message : OneLine
      ("Locking " ++ invocation.shownNumber ++ shownReason actions.lockReason) :=
    oneLine_append.mpr ⟨plain.oneLine_about (by decide), oneLine_shownReason _⟩
  exact (keeps_bring (by decide) (by decide) message (client.keeps_order _)).bind fun _ =>
    keeps_bring (by decide) (by decide) (plain.oneLine_about (by decide)) (client.keeps_order _)

/-! Words have no breaks, because breaks are blank. -/

theorem isLineBreak_of_not_isBlank {c : Char} (solid : isBlank c = false) :
    isLineBreak c = false := by
  rw [Bool.eq_false_iff]
  intro breaks
  have blank : ∀ code ∈ breakCodes, isBlank (Char.ofNat code) = true := by decide
  rw [← Char.ofNat_toNat c, blank _ (mem_breakCodes breaks)] at solid
  cases solid

/-- The names that specifiers ask for are parts of words. -/
theorem oneLine_ofSpecifiers {specifiers : List String} {arguments : Context} {people : Bool}
    {changes : Changes} (made : Changes.ofSpecifiers specifiers arguments people = .ok changes) :
    ∀ name ∈ changes.add ++ changes.remove, OneLine name := by
  rcases exists_of_bind_ok made with ⟨found, worded, whole⟩
  rcases exists_of_bind_ok worded with ⟨texts, -, flat⟩
  cases flat
  cases whole
  intro name member c inName
  have solid : ∀ word ∈ texts.flatMap fun text => words text.toList,
      word ≠ [] ∧ ∀ c ∈ word, isBlank c = false := by
    intro word inWords
    rcases List.mem_flatMap.mp inWords with ⟨text, -, inText⟩
    exact of_mem_words inText
  exact isLineBreak_of_not_isBlank
    (((Changes.classifies_ofWords people _ solid).named name member).2 c inName)

/-- What is removed is asked for or is there. -/
theorem isPlain_resolveRemovals {remove : List String} {current : List Value}
    (asked : ∀ name ∈ remove, OneLine name) (present : ∀ value ∈ current, value.IsPlain) :
    ∀ value ∈ resolveRemovals remove current, value.IsPlain := by
  rw [resolveRemovals]
  split
  · exact present
  · intro value member text inValue
    rcases List.mem_map.mp member with ⟨name, among, rfl⟩
    rw [Value.leaves] at inValue
    rw [List.mem_singleton.mp inValue]
    exact asked name among

theorem oneLine_textsOf {values : List Value} {names : List String}
    (plain : ∀ value ∈ values, value.IsPlain) (read : textsOf values = .ok names) :
    ∀ name ∈ names, OneLine name := by
  induction values generalizing names with
  | nil =>
      cases read
      exact List.forall_mem_nil _
  | cons value values ih =>
      rw [List.forall_mem_cons] at plain
      rw [textsOf, List.mapM_cons] at read
      rcases exists_of_bind_ok read with ⟨first, named, reading⟩
      rcases exists_of_bind_ok reading with ⟨others, later, whole⟩
      cases whole
      rw [List.forall_mem_cons]
      refine ⟨?_, ih plain.2 later⟩
      cases value with
      | str text =>
          cases named
          exact plain.1.oneLine_display
      | _ => cases named

theorem keeps_removeEach (names : List String) :
    (invocation.removeEach client names).Keeps Step.IsOneLine :=
  (Job.keeps_mapM fun _ _ => (client.keeps_order _).attempt).bind fun _ =>
    Job.keeps_forM fun outcome _ => Job.keeps_ofExcept outcome

theorem IsPlain.keeps_applyLabels (plain : invocation.IsPlain) :
    (invocation.applyLabels client actions).Keeps Step.IsOneLine := by
  apply Job.keeps_bind_ofExcept
  intro changes made
  have asked := List.forall_mem_append.mp (oneLine_ofSpecifiers made)
  refine (keeps_bring (by decide) (by decide)
    (plain.oneLine_listing (by decide) (by decide) asked.1) (client.keeps_order _)).bind fun _ => ?_
  apply Job.keeps_bind_ofExcept
  intro names read
  have removed := oneLine_textsOf (isPlain_resolveRemovals asked.2 plain.target.labels) read
  refine keeps_bring (by decide) (by decide)
    (plain.oneLine_listing (by decide) (by decide) ?_) (keeps_removeEach _)
  exact fun name member => removed name (List.mem_eraseDups.mp member)

theorem IsPlain.keeps_applyPeople (plain : invocation.IsPlain) :
    (invocation.applyPeople client actions).Keeps Step.IsOneLine := by
  apply Job.keeps_bind_ofExcept
  intro changes made
  have asked := List.forall_mem_append.mp (oneLine_ofSpecifiers made)
  refine Job.Keeps.bind ?_ fun _ => keeps_bring (by decide) (by decide)
    (plain.oneLine_listing (by decide) (by decide) asked.1) (client.keeps_order _)
  apply Job.keeps_bind_ofExcept
  intro names read
  have removed := oneLine_textsOf (isPlain_resolveRemovals asked.2 plain.target.assignees) read
  exact keeps_bring (by decide) (by decide)
    (plain.oneLine_listing (by decide) (by decide) removed) (client.keeps_order _)

theorem IsPlain.keeps_applyDispatch (plain : invocation.IsPlain) :
    (invocation.applyDispatch client actions).Keeps Step.IsOneLine := by
  have first : OneLine "Dispatching repository event \"" := by decide
  have last : OneLine "\"" := by decide
  refine keeps_bring (by decide) (by decide) ?_ (client.keeps_order _)
  simp only [oneLine_append, first, plain.name, last, and_self]

/-- Applying an action set tells nothing that breaks a line. The target does not matter if nothing
is configured. -/
theorem keeps_apply (name : OneLine invocation.command.name) (context : OneLine invocation.context)
    (reactions : ∀ name ∈ actions.reactions, OneLine name)
    (target : actions.isEmpty = false → invocation.target.IsPlain) :
    (invocation.apply client actions).Keeps Step.IsOneLine := by
  rw [apply]
  split
  · have first : OneLine "No actions configured for /" := by decide
    have second : OneLine " (" := by decide
    have last : OneLine ")" := by decide
    have message : OneLine ("No actions configured for /" ++ invocation.command.name ++ " (" ++
        invocation.context ++ ")") := by
      simp only [oneLine_append, first, name, second, context, last, and_self]
    exact Job.keeps_tell message
  · rename_i filled
    have plain : invocation.IsPlain := ⟨name, context, target (Bool.eq_false_iff.mpr filled)⟩
    exact plain.keeps_applyPins.bind fun _ =>
      (plain.keeps_applyComment reactions).bind fun _ =>
      plain.keeps_applyState.bind fun _ =>
      plain.keeps_applyLock.bind fun _ =>
      plain.keeps_applyLabels.bind fun _ =>
      plain.keeps_applyPeople.bind fun _ =>
      plain.keeps_applyDispatch

end Invocation

end SlashBot

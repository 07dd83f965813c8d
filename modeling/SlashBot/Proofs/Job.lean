import SlashBot.Job

/-!
# Running jobs

A run of two jobs in sequence is the run of the first, followed by that of the second
unless the first ended in a fault. Everything that is proved of runs comes down to this
law and to the equations of the single constructors.
-/

namespace SlashBot

/-- A result that was made in two steps has an intermediate result. -/
theorem exists_of_bind_ok {α β : Type} {outcome : Except Fault α} {next : α → Except Fault β}
    {result : β} (ended : (outcome >>= next) = .ok result) :
    ∃ middle, outcome = .ok middle ∧ next middle = .ok result := by
  cases outcome with
  | error fault => cases ended
  | ok middle => exact ⟨middle, rfl, ended⟩

/-- Faults cannot be compared, but whether some work ended well can be decided. -/
instance (outcome : Except Fault Unit) : Decidable (outcome = .ok ()) :=
  match outcome with
  | .ok () => isTrue rfl
  | .error _ => isFalse nofun

namespace Run

variable {α β γ : Type}

/-- Goes on after a run, unless it ended in a fault. -/
def andThen (run : Run α) (next : α → List Step → Run β) : Run β :=
  match run with
  | (.ok result, steps) => ((next result steps).1, steps ++ (next result steps).2)
  | (.error fault, steps) => (.error fault, steps)

@[simp] theorem andThen_ok (result : α) (steps : List Step)
    (next : α → List Step → Run β) :
    andThen (.ok result, steps) next =
      ((next result steps).1, steps ++ (next result steps).2) := rfl

@[simp] theorem andThen_error (fault : Fault) (steps : List Step)
    (next : α → List Step → Run β) :
    andThen (.error fault, steps) next = (.error fault, steps) := rfl

/-- A run without its result. -/
def void (run : Run α) : Run Unit := (run.1.map fun _ => (), run.2)

@[simp] theorem void_ok (result : α) (steps : List Step) :
    void (.ok result, steps) = (.ok (), steps) := rfl

@[simp] theorem void_error (fault : Fault) (steps : List Step) :
    void ((.error fault, steps) : Run α) = (.error fault, steps) := rfl

end Run

@[simp] theorem requestsSent_nil : requestsSent [] = [] := rfl

@[simp] theorem requestsSent_said (entry : Entry) (steps : List Step) :
    requestsSent (.said entry :: steps) = requestsSent steps := rfl

@[simp] theorem requestsSent_recorded (effect : Effect) (steps : List Step) :
    requestsSent (.recorded effect :: steps) = requestsSent steps := rfl

@[simp] theorem requestsSent_sent (request : Request) (reply : Reply) (steps : List Step) :
    requestsSent (.sent request reply :: steps) = request :: requestsSent steps := rfl

@[simp] theorem requestsSent_append (first second : List Step) :
    requestsSent (first ++ second) = requestsSent first ++ requestsSent second :=
  List.filterMap_append

/-- A run sends no more requests if what comes after it sends none. -/
theorem Run.requestsSent_andThen {α β : Type} (run : Run α) (next : α → List Step → Run β)
    (silent : ∀ result steps, requestsSent (next result steps).2 = []) :
    requestsSent (run.andThen next).2 = requestsSent run.2 := by
  rcases run with ⟨_ | result, steps⟩
  · rfl
  · simp [silent]

@[simp] theorem effectsRecorded_nil : effectsRecorded [] = [] := rfl

@[simp] theorem effectsRecorded_said (entry : Entry) (steps : List Step) :
    effectsRecorded (.said entry :: steps) = effectsRecorded steps := rfl

@[simp] theorem effectsRecorded_recorded (effect : Effect) (steps : List Step) :
    effectsRecorded (.recorded effect :: steps) = effect :: effectsRecorded steps := rfl

@[simp] theorem effectsRecorded_sent (request : Request) (reply : Reply) (steps : List Step) :
    effectsRecorded (.sent request reply :: steps) = effectsRecorded steps := rfl

@[simp] theorem effectsRecorded_append (first second : List Step) :
    effectsRecorded (first ++ second) = effectsRecorded first ++ effectsRecorded second :=
  List.filterMap_append

/-- The steps without what was said. -/
def unsaid (steps : List Step) : List Step :=
  steps.filter fun step => step.entry?.isNone

@[simp] theorem unsaid_nil : unsaid [] = [] := rfl

@[simp] theorem unsaid_said (entry : Entry) (steps : List Step) :
    unsaid (.said entry :: steps) = unsaid steps := rfl

@[simp] theorem unsaid_recorded (effect : Effect) (steps : List Step) :
    unsaid (.recorded effect :: steps) = .recorded effect :: unsaid steps := rfl

@[simp] theorem unsaid_sent (request : Request) (reply : Reply) (steps : List Step) :
    unsaid (.sent request reply :: steps) = .sent request reply :: unsaid steps := rfl

@[simp] theorem unsaid_append (first second : List Step) :
    unsaid (first ++ second) = unsaid first ++ unsaid second :=
  List.filter_append ..

@[simp] theorem requestsSent_unsaid (steps : List Step) :
    requestsSent (unsaid steps) = requestsSent steps := by
  induction steps with
  | nil => rfl
  | cons step steps ih => cases step <;> simpa using ih

namespace Job

variable {α β γ : Type} (server : Server) (earlier : List Request)

@[simp] theorem pure_eq (result : α) : (pure result : Job α) = done result := rfl

@[simp] theorem bind_eq (job : Job α) (next : α → Job β) : (job >>= next) = job.bind next := rfl

theorem bind_done (job : Job α) : job.bind done = job := by
  induction job with
  | done result => rfl
  | fail fault => rfl
  | say entry next ih => simp [Job.bind, ih]
  | record effect next ih => simp [Job.bind, ih]
  | send request next ih => simp [Job.bind, ih]

theorem bind_assoc (job : Job α) (first : α → Job β) (second : β → Job γ) :
    (job.bind first).bind second = job.bind fun result => (first result).bind second := by
  induction job with
  | done result => rfl
  | fail fault => rfl
  | say entry next ih => simp [Job.bind, ih]
  | record effect next ih => simp [Job.bind, ih]
  | send request next ih => simp [Job.bind, ih]

instance : LawfulMonad Job :=
  LawfulMonad.mk' Job (fun job => bind_done job) (fun _ _ => rfl) bind_assoc

@[simp] theorem run_done (result : α) : (done result).run server earlier = (.ok result, []) := rfl

@[simp] theorem run_fail (fault : Fault) :
    (fail fault : Job α).run server earlier = (.error fault, []) := rfl

@[simp] theorem run_ofExcept (outcome : Except Fault α) :
    (ofExcept outcome).run server earlier = (outcome, []) := by
  cases outcome <;> rfl

@[simp] theorem run_tell (entry : Entry) :
    (tell entry).run server earlier = (.ok (), [.said entry]) := rfl

@[simp] theorem run_apply (effect : Effect) :
    (apply effect).run server earlier = (.ok (), [.recorded effect]) := rfl

@[simp] theorem run_exchange (request : Request) :
    (exchange request).run server earlier =
      (.ok (server earlier request), [.sent request (server earlier request)]) := rfl

/-- The run of two jobs in sequence. -/
@[simp] theorem run_bind (job : Job α) (next : α → Job β) :
    (job.bind next).run server earlier =
      (job.run server earlier).andThen fun result steps =>
        (next result).run server (earlier ++ requestsSent steps) := by
  induction job generalizing earlier with
  | done result => simp [Job.bind]
  | fail fault => rfl
  | say entry rest ih =>
      simp only [Job.bind, run, ih]
      rcases rest.run server earlier with ⟨_ | _, steps⟩ <;> rfl
  | record effect rest ih =>
      simp only [Job.bind, run, ih]
      rcases rest.run server earlier with ⟨_ | _, steps⟩ <;> rfl
  | send request rest ih =>
      simp only [Job.bind, run, ih]
      rcases (rest (server earlier request)).run server (earlier ++ [request]) with
        ⟨_ | _, steps⟩ <;> simp

variable {server : Server} {earlier : List Request}

/-- Two jobs in sequence end well if both do. -/
theorem of_bind_ok {job : Job α} {next : α → Job β} {result : β} {steps : List Step}
    (ended : (job.bind next).run server earlier = (.ok result, steps)) :
    ∃ middle first second, job.run server earlier = (.ok middle, first) ∧
      (next middle).run server (earlier ++ requestsSent first) = (.ok result, second) ∧
      steps = first ++ second := by
  rw [run_bind] at ended
  rcases ran : job.run server earlier with ⟨_ | middle, first⟩
  · rw [ran] at ended
    cases ended
  · rw [ran, Run.andThen_ok] at ended
    rcases Prod.mk.inj ended with ⟨continued, rfl⟩
    exact ⟨middle, first, _, rfl, Prod.ext continued rfl, rfl⟩

/-- Two jobs in sequence fail if the first does, or else the second. -/
theorem of_bind_error {job : Job α} {next : α → Job β} {fault : Fault} {steps : List Step}
    (ended : (job.bind next).run server earlier = (.error fault, steps)) :
    job.run server earlier = (.error fault, steps) ∨
      ∃ middle first second, job.run server earlier = (.ok middle, first) ∧
        (next middle).run server (earlier ++ requestsSent first) = (.error fault, second) ∧
        steps = first ++ second := by
  rw [run_bind] at ended
  rcases ran : job.run server earlier with ⟨other | middle, first⟩
  · rw [ran, Run.andThen_error] at ended
    cases ended
    exact .inl rfl
  · rw [ran, Run.andThen_ok] at ended
    rcases Prod.mk.inj ended with ⟨continued, rfl⟩
    exact .inr ⟨middle, first, _, rfl, Prod.ext continued rfl, rfl⟩

theorem of_ofExcept_ok {outcome : Except Fault α} {next : α → Job β} {result : β}
    {steps : List Step}
    (ended : ((ofExcept outcome).bind next).run server earlier = (.ok result, steps)) :
    ∃ middle, outcome = .ok middle ∧ (next middle).run server earlier = (.ok result, steps) := by
  cases outcome with
  | error fault => cases ended
  | ok middle => exact ⟨middle, rfl, ended⟩

variable (server : Server) (earlier : List Request)

/-- A job whose fault became a part of its result does the same and always ends well. -/
@[simp] theorem run_attempt (job : Job α) :
    job.attempt.run server earlier =
      (.ok (job.run server earlier).1, (job.run server earlier).2) := by
  induction job generalizing earlier with
  | done result => rfl
  | fail fault => rfl
  | say entry rest ih => simp [attempt, run, ih]
  | record effect rest ih => simp [attempt, run, ih]
  | send request rest ih => simp [attempt, run, ih]

/-- A recording job also ends with the effects that it recorded. -/
@[simp] theorem run_recording (job : Job α) :
    job.recording.run server earlier =
      ((job.run server earlier).1.map fun result =>
          (result, effectsRecorded (job.run server earlier).2),
        (job.run server earlier).2) := by
  induction job generalizing earlier with
  | done result => rfl
  | fail fault => rfl
  | say entry rest ih => simp [recording, run, ih]
  | record effect rest ih =>
      simp only [recording, run, run_bind, ih]
      rcases rest.run server earlier with ⟨_ | result, steps⟩
      · rfl
      · simp [Except.map]
  | send request rest ih => simp [recording, run, ih]

/-- The job sends no request. -/
def Silent (job : Job α) : Prop :=
  ∀ server earlier, requestsSent (job.run server earlier).2 = []

theorem silent_done (result : α) : (done result).Silent :=
  fun _ _ => rfl

theorem silent_ofExcept (outcome : Except Fault α) : (ofExcept outcome).Silent := by
  intro server earlier
  rw [run_ofExcept]
  rfl

theorem silent_tell (entry : Entry) : (tell entry).Silent :=
  fun _ _ => rfl

/-- A job sends no more requests if what comes after it sends none. -/
theorem requestsSent_bind {job : Job α} {next : α → Job β}
    (silent : ∀ result, (next result).Silent) :
    requestsSent ((job.bind next).run server earlier).2 =
      requestsSent (job.run server earlier).2 := by
  rw [run_bind, Run.requestsSent_andThen _ _ fun result steps => silent result server _]

theorem Silent.bind {job : Job α} {next : α → Job β} (first : job.Silent)
    (second : ∀ result, (next result).Silent) : (job.bind next).Silent := by
  intro server earlier
  rw [requestsSent_bind server earlier second]
  exact first server earlier

end Job

end SlashBot

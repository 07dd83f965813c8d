import SlashBot.Proofs.Following

/-!
# Tracking

Calls change what the service keeps of an issue: its state, its lock, the names it carries.
Here such a thing is tracked through the steps of a run. Every request that was accepted
changes it as its call says, and nothing else does, so a run that goes through its plan
leaves what the tasks of the plan lead to.
-/

namespace SlashBot

variable {σ : Type}

/-- What the service keeps, after a step. A request that was not accepted changes nothing. -/
def trackStep (afterCall : σ → Call → σ) (kept : σ) (step : Step) : σ :=
  match step with
  | .sent request reply => if reply.isAccepted then afterCall kept request.call else kept
  | _ => kept

/-- What the service keeps, after some steps. -/
def track (afterCall : σ → Call → σ) (kept : σ) (steps : List Step) : σ :=
  steps.foldl (trackStep afterCall) kept

section Steps

variable {afterCall : σ → Call → σ} {kept : σ} {steps more : List Step}

@[simp] theorem track_nil : track afterCall kept [] = kept := rfl

@[simp] theorem track_cons (step : Step) :
    track afterCall kept (step :: steps) =
      track afterCall (trackStep afterCall kept step) steps := rfl

@[simp] theorem track_append :
    track afterCall kept (steps ++ more) = track afterCall (track afterCall kept steps) more :=
  List.foldl_append

@[simp] theorem track_recorded (effects : List Effect) :
    track afterCall kept (effects.map .recorded) = kept := by
  induction effects with
  | nil => rfl
  | cons effect effects ih => exact ih

@[simp] theorem track_unsaid : track afterCall kept (unsaid steps) = track afterCall kept steps := by
  induction steps generalizing kept with
  | nil => rfl
  | cons step steps ih => cases step <;> exact ih

/-- Calls that do not change it leave what the service keeps as it is. -/
theorem track_eq
    (still : ∀ request ∈ requestsSent steps, ∀ kept, afterCall kept request.call = kept) :
    track afterCall kept steps = kept := by
  induction steps with
  | nil => rfl
  | cons step steps ih =>
      cases step with
      | said entry => exact ih still
      | recorded effect => exact ih still
      | sent request reply =>
          simp only [requestsSent_sent, List.mem_cons, forall_eq_or_imp] at still
          rw [track_cons, trackStep, still.1, ite_self]
          exact ih still.2

/-- An accepted call changes what the service keeps, and one that failed does not. -/
theorem track_ask (client : Client) (server : Server) (earlier : List Request) (call : Call) :
    track afterCall kept (client.ask server earlier call).2 =
      match (client.ask server earlier call).1 with
      | .ok _ => afterCall kept call
      | .error _ => kept := by
  rcases client.ask_cases server earlier call with ⟨fault, asked⟩ | ⟨request, -, rfl, asked⟩
  · rw [asked]
    rfl
  · rw [asked, track_cons, track_nil, trackStep]
    cases server earlier request with
    | unreachable => rfl
    | response status octets =>
        simp only [Reply.isAccepted, Client.outcomeOf, Client.accepted]
        by_cases refused : Client.isRefusal status = true <;> simp [refused]

end Steps

/-! ## Executing tasks -/

/-- What the service keeps, after a piece of work was done. The calls for reactions are not
known in advance, so only what they do not change can be tracked. -/
def Work.change (afterCall : σ → Call → σ) (kept : σ) (work : Work) : σ :=
  match work with
  | ask call => afterCall kept call
  | removeEach number names =>
      names.foldl (fun kept name => afterCall kept (.removeLabel number name)) kept
  | react _ | halt _ => kept

/-- What the service keeps, after some tasks were done. -/
def Task.changes (afterCall : σ → Call → σ) (kept : σ) (tasks : List Task) : σ :=
  tasks.foldl (fun kept task => task.work.change afterCall kept) kept

section Tasks

variable {afterCall : σ → Call → σ} {kept : σ} {tasks more : List Task}

theorem Task.changes_append :
    changes afterCall kept (tasks ++ more) =
      changes afterCall (changes afterCall kept tasks) more :=
  List.foldl_append

@[simp] theorem Task.changes_planIf (wanted : Bool) (call : Call) (effect : Effect) :
    changes afterCall kept (Invocation.planIf wanted call effect) =
      if wanted then afterCall kept call else kept := by
  cases wanted <;> rfl

/-- Tasks whose calls do not change it leave what the service keeps as it is. -/
theorem Task.changes_eq (still : EachCall (fun call => ∀ kept, afterCall kept call = kept) tasks) :
    changes afterCall kept tasks = kept := by
  induction tasks with
  | nil => rfl
  | cons task tasks ih =>
      have own : task.work.change afterCall kept = kept := by
        have each := still task (by simp)
        revert each
        cases task.work with
        | ask call =>
            intro each
            exact each call rfl kept
        | removeEach number names =>
            intro each
            apply List.foldlRecOn (motive := (· = kept)) names _ rfl
            rintro other rfl name member
            exact each _ ⟨name, member, rfl⟩ other
        | react name => exact fun _ => rfl
        | halt fault => exact fun _ => rfl
      rw [changes, List.foldl_cons, own]
      exact ih fun other member => still other (by simp [member])

variable {client : Client} {server : Server} {earlier : List Request} {comment newest : Value}
  {steps : List Step}

theorem track_askEach {number : Value} {names : List String}
    (spared : firstFault? (askEach client server number earlier names).1 = none) :
    track afterCall kept (askEach client server number earlier names).2 =
      names.foldl (fun kept name => afterCall kept (.removeLabel number name)) kept := by
  induction names generalizing earlier kept with
  | nil => rfl
  | cons name names ih =>
      have asked : track afterCall kept _ = _ :=
        track_ask client server earlier (.removeLabel number name)
      rw [askEach] at spared ⊢
      cases outcome : (client.ask server earlier (.removeLabel number name)).1 with
      | error fault =>
          rw [outcome] at spared
          cases spared
      | ok octets =>
          rw [outcome] at spared asked
          rw [track_append, asked]
          exact ih spared

theorem Work.track_perform {work : Work}
    (unreacted : ∀ kept comment name, afterCall kept (.addReaction comment name) = kept)
    (performed : work.perform client server earlier comment = (.ok newest, steps)) :
    track afterCall kept steps = work.change afterCall kept := by
  cases work with
  | ask call =>
      have asked : track afterCall kept _ = _ := track_ask client server earlier call
      rw [perform] at performed
      rcases ran : client.ask server earlier call with ⟨_ | octets, own⟩
      · rw [ran] at performed
        cases performed
      · rw [ran] at performed asked
        rw [← (Prod.mk.inj performed).2, List.append_nil]
        exact asked
  | react name =>
      have asked : track afterCall kept _ = _ :=
        track_ask client server earlier (.addReaction comment name)
      rw [perform] at performed
      rcases ran : client.ask server earlier (.addReaction comment name) with ⟨_ | octets, own⟩
      · rw [ran] at performed
        cases performed
      · rw [ran] at performed asked
        rw [← (Prod.mk.inj performed).2, List.append_nil, asked]
        exact unreacted kept comment name
  | removeEach number names =>
      rw [perform] at performed
      split at performed
      · cases performed
      · rename_i spared
        rw [← (Prod.mk.inj performed).2]
        exact track_askEach spared
  | halt fault => cases performed

/-- Tasks that go through leave what they lead to. -/
theorem track_execute
    (unreacted : ∀ kept comment name, afterCall kept (.addReaction comment name) = kept)
    (executed : Task.execute client server earlier comment tasks = (.ok newest, steps)) :
    track afterCall kept steps = Task.changes afterCall kept tasks := by
  induction tasks generalizing earlier comment kept steps with
  | nil =>
      cases executed
      rfl
  | cons task tasks ih =>
      rw [Task.execute, Task.perform] at executed
      rcases performed : task.work.perform client server earlier comment with ⟨_ | made, own⟩
      · rw [performed] at executed
        cases executed
      · rw [performed] at executed
        rcases Prod.mk.inj executed with ⟨ended, rfl⟩
        rw [track_append, track_append, track_recorded, Work.track_perform unreacted performed]
        exact ih (Prod.ext ended rfl)

/-- A job that ends well leaves what the tasks that it follows lead to. -/
theorem Follows.track_run {job : Job Unit} (follows : Follows client job tasks)
    (unreacted : ∀ kept comment name, afterCall kept (.addReaction comment name) = kept)
    (ended : (job.run server earlier).1 = .ok ()) :
    track afterCall kept (job.run server earlier).2 = Task.changes afterCall kept tasks := by
  obtain ⟨newest, executed⟩ := follows.exists_executed ended .null
  rw [← track_unsaid]
  exact track_execute unreacted executed

end Tasks

end SlashBot

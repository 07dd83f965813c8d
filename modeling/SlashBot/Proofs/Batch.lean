import SlashBot.Proofs.Following

/-!
# Batches

Some calls belong together: all of them are sent, whichever of them fail, and only then does
the first failure among them count. The removals of labels are such a batch, and so is a
single call. Where one batch comes after another, the second is sent only if the first went
through.
-/

namespace SlashBot

/-- Of some calls that are sent one after the other, the first that fails does so with this
fault. -/
inductive Client.FailsFirst (client : Client) (server : Server) :
    (earlier : List Request) → (calls : List Call) → (fault : Fault) → Prop
  | here {earlier : List Request} {call : Call} {rest : List Call} {fault : Fault}
      (failed : (client.ask server earlier call).1 = .error fault) :
      FailsFirst client server earlier (call :: rest) fault
  | later {earlier : List Request} {call : Call} {rest : List Call} {fault : Fault}
      {octets : List UInt8} (passed : (client.ask server earlier call).1 = .ok octets)
      (fails : FailsFirst client server (earlier ++ client.requests [call]) rest fault) :
      FailsFirst client server earlier (call :: rest) fault

/-- None of some calls that are sent one after the other fails. -/
def Client.Passes (client : Client) (server : Server) (earlier : List Request)
    (calls : List Call) : Prop :=
  ∀ fault, ¬ client.FailsFirst server earlier calls fault

/-- Either a call of some fails first, or they pass. -/
theorem Client.failsFirst_or_passes (client : Client) (server : Server) (earlier : List Request)
    (calls : List Call) :
    (∃ fault, client.FailsFirst server earlier calls fault) ∨ client.Passes server earlier calls := by
  by_cases fails : ∃ fault, client.FailsFirst server earlier calls fault
  · exact .inl fails
  · exact .inr fun fault failed => fails ⟨fault, failed⟩

section Calls

variable {client : Client} {server : Server} {earlier : List Request} {call : Call}
  {fault : Fault} {calls rest : List Call}

theorem passes_nil : client.Passes server earlier [] := by
  intro fault fails
  cases fails

theorem failsFirst_cons_of_ok {octets : List UInt8}
    (passed : (client.ask server earlier call).1 = .ok octets) :
    client.FailsFirst server earlier (call :: rest) fault ↔
      client.FailsFirst server (earlier ++ client.requests [call]) rest fault := by
  constructor
  · intro fails
    cases fails with
    | here failed =>
        rw [passed] at failed
        cases failed
    | later _ fails => exact fails
  · exact .later passed

theorem failsFirst_cons_of_error {cause : Fault}
    (failed : (client.ask server earlier call).1 = .error cause) :
    client.FailsFirst server earlier (call :: rest) fault ↔ cause = fault := by
  constructor
  · intro fails
    cases fails with
    | here other =>
        rw [failed] at other
        exact Except.error.inj other
    | later passed =>
        rw [failed] at passed
        cases passed
  · rintro rfl
    exact .here failed

end Calls

/-! ## Runs of a batch -/

/-- A run sends the requests of a batch, whatever becomes of them. If one of the calls fails,
the run ends with the first failure, and otherwise it ends well and records effects. -/
structure Batch {α : Type} (client : Client) (server : Server) (earlier : List Request)
    (calls : List Call) (effects : List Effect) (run : Run α) : Prop where
  sends : requestsSent run.2 = client.requests calls
  fails : ∀ fault, client.FailsFirst server earlier calls fault →
    run.1 = .error fault ∧ effectsRecorded run.2 = []
  passes : client.Passes server earlier calls →
    (∃ result, run.1 = .ok result) ∧ effectsRecorded run.2 = effects

/-- A run sends two batches, of which the second depends on the first. -/
structure InTurn {α : Type} (client : Client) (server : Server) (earlier : List Request)
    (first second : List Call) (done more : List Effect) (run : Run α) : Prop where
  /-- If a call of the first batch fails, the run ends with this batch. -/
  refused : ∀ fault, client.FailsFirst server earlier first fault →
    run.1 = .error fault ∧ requestsSent run.2 = client.requests first ∧ effectsRecorded run.2 = []
  /-- Otherwise every call of the second batch is sent after it. -/
  sends : client.Passes server earlier first →
    requestsSent run.2 = client.requests (first ++ second)
  /-- Of the failures in the second batch the first one counts. -/
  fails : client.Passes server earlier first →
    ∀ fault, client.FailsFirst server (earlier ++ client.requests first) second fault →
      run.1 = .error fault ∧ effectsRecorded run.2 = done
  /-- The run ends well if no call fails. -/
  passes : client.Passes server earlier first →
    client.Passes server (earlier ++ client.requests first) second →
      (∃ result, run.1 = .ok result) ∧ effectsRecorded run.2 = done ++ more

section Runs

variable {client : Client} {server : Server} {earlier : List Request} {comment : Value}
  {first second : List Call} {done more : List Effect} {tasks others : List Task}

theorem batch_nothing :
    Batch client server earlier [] [] (Task.execute client server earlier comment []) where
  sends := rfl
  fails := nofun
  passes _ := ⟨⟨comment, rfl⟩, rfl⟩

/-- A single call is a batch. -/
theorem batch_ask {call : Call} (effect : Effect)
    (silent : ∀ octets, call.newest comment octets = .ok comment) :
    Batch client server earlier [call] [effect]
      (Task.execute client server earlier comment [⟨.ask call, some effect⟩]) := by
  have sent := client.requestsSent_ask server earlier call
  have unrecorded : effectsRecorded (client.ask server earlier call).2 = [] :=
    effectsRecorded_ask
  rw [Task.execute_singleton, Task.perform, Work.perform]
  rcases asked : client.ask server earlier call with ⟨cause | octets, steps⟩
  · have failed := congrArg Prod.fst asked
    rw [asked] at sent unrecorded
    refine ⟨sent, ?_, ?_⟩
    · intro fault fails
      rw [← (failsFirst_cons_of_error failed).mp fails]
      exact ⟨rfl, unrecorded⟩
    · intro passes
      exact absurd (.here failed) (passes cause)
  · have passed := congrArg Prod.fst asked
    rw [asked] at sent unrecorded
    simp only [Run.andThen_ok, silent]
    refine ⟨?_, ?_, ?_⟩
    · simpa using sent
    · intro fault fails
      exact absurd ((failsFirst_cons_of_ok passed).mp fails) (passes_nil fault)
    · intro _
      refine ⟨⟨comment, rfl⟩, ?_⟩
      simp [unrecorded]

theorem batch_planIf {call : Call} (wanted : Bool) (effect : Effect)
    (silent : ∀ octets, call.newest comment octets = .ok comment) :
    Batch client server earlier (if wanted then [call] else []) (if wanted then [effect] else [])
      (Task.execute client server earlier comment (Invocation.planIf wanted call effect)) := by
  cases wanted with
  | false => exact batch_nothing
  | true => exact batch_ask effect silent

/-! The removals of labels are sent one after the other, and the first fault among them is the
one that counts. -/

theorem requestsSent_askEach (number : Value) (names : List String) :
    requestsSent (askEach client server number earlier names).2 =
      client.requests (names.map (.removeLabel number)) := by
  induction names generalizing earlier with
  | nil => rfl
  | cons name names ih =>
      have whole : (name :: names).map (Call.removeLabel number) =
          [.removeLabel number name] ++ names.map (.removeLabel number) := rfl
      rw [askEach, requestsSent_append, ih, Client.requestsSent_ask, whole, Client.requests_append]

theorem firstFault?_askEach (number : Value) (names : List String) (fault : Fault) :
    firstFault? (askEach client server number earlier names).1 = some fault ↔
      client.FailsFirst server earlier (names.map (.removeLabel number)) fault := by
  induction names generalizing earlier with
  | nil =>
      constructor
      · nofun
      · nofun
  | cons name names ih =>
      rw [askEach, List.map_cons]
      cases asked : (client.ask server earlier (.removeLabel number name)).1 with
      | error cause =>
          rw [failsFirst_cons_of_error asked]
          exact Option.some_inj
      | ok octets =>
          rw [failsFirst_cons_of_ok asked, ← ih, Client.requestsSent_ask]
          rfl

theorem batch_removeEach (number : Value) (names : List String) (effect : Effect) :
    Batch client server earlier (names.map (.removeLabel number)) [effect]
      (Task.execute client server earlier comment [⟨.removeEach number names, some effect⟩]) := by
  have sent : requestsSent (askEach client server number earlier names).2 = _ :=
    requestsSent_askEach number names
  have unrecorded : effectsRecorded (askEach client server number earlier names).2 = [] :=
    effectsRecorded_askEach number names
  have outcome (fault : Fault) :
      firstFault? (askEach client server number earlier names).1 = some fault ↔ _ :=
    firstFault?_askEach number names fault
  rw [Task.execute_singleton, Task.perform, Work.perform]
  cases first : firstFault? (askEach client server number earlier names).1 with
  | none =>
      rw [first] at outcome
      refine ⟨by simpa using sent, ?_, ?_⟩
      · intro fault fails
        exact absurd ((outcome fault).mpr fails) (by simp)
      · intro _
        exact ⟨⟨comment, rfl⟩, by simp [unrecorded]⟩
  | some cause =>
      rw [first] at outcome
      refine ⟨by simpa using sent, ?_, ?_⟩
      · intro fault fails
        rw [Option.some.inj ((outcome fault).mpr fails)]
        exact ⟨rfl, by simpa using unrecorded⟩
      · intro passes
        exact absurd ((outcome cause).mp rfl) (passes cause)

/-! ## Batches in turn -/

/-- Batches in turn send nothing but their calls, in order. -/
theorem InTurn.calls_sublist {α : Type} {run : Run α}
    (inTurn : InTurn client server earlier first second done more run) :
    ((requestsSent run.2).map Request.call).Sublist (first ++ second) := by
  rcases client.failsFirst_or_passes server earlier first with ⟨fault, failed⟩ | passed
  · rw [(inTurn.refused fault failed).2.1]
    exact (client.calls_requests_sublist first).trans (List.sublist_append_left first second)
  · rw [inTurn.sends passed]
    exact client.calls_requests_sublist (first ++ second)

/-- Tasks in sequence send their batches in turn. -/
theorem Batch.inTurn
    (batch : Batch client server earlier first done
      (Task.execute client server earlier comment tasks))
    (next : ∀ newest, Batch client server (earlier ++ client.requests first) second more
      (Task.execute client server (earlier ++ client.requests first) newest others)) :
    InTurn client server earlier first second done more
      (Task.execute client server earlier comment (tasks ++ others)) := by
  rw [Task.execute_append]
  -- How the first tasks end tells whether a call of their batch failed.
  rcases executed : Task.execute client server earlier comment tasks with ⟨cause | newest, steps⟩
  · rw [executed] at batch
    rcases client.failsFirst_or_passes server earlier first with ⟨fault, failed⟩ | passes
    · have blocked : ¬ client.Passes server earlier first := fun passes => passes fault failed
      refine ⟨?_, fun passes => absurd passes blocked, fun passes => absurd passes blocked,
        fun passes => absurd passes blocked⟩
      intro other fails
      exact ⟨(batch.fails other fails).1, batch.sends, (batch.fails other fails).2⟩
    · obtain ⟨⟨result, ended⟩, -⟩ := batch.passes passes
      cases ended
  · rw [executed] at batch
    have passed : client.Passes server earlier first := by
      intro fault failed
      cases (batch.fails fault failed).1
    have recorded := (batch.passes passed).2
    have sent : requestsSent steps = client.requests first := batch.sends
    have following := next newest
    rw [Run.andThen_ok, sent]
    refine ⟨fun fault failed => absurd failed (passed fault), ?_, ?_, ?_⟩
    · intro _
      rw [requestsSent_append, sent, following.sends, Client.requests_append]
    · intro _ fault failed
      obtain ⟨ended, unrecorded⟩ := following.fails fault failed
      exact ⟨ended, by rw [effectsRecorded_append, recorded, unrecorded, List.append_nil]⟩
    · intro _ passes
      obtain ⟨ended, others⟩ := following.passes passes
      exact ⟨ended, by rw [effectsRecorded_append, recorded, others]⟩

theorem effectsRecorded_unsaid (steps : List Step) :
    effectsRecorded (unsaid steps) = effectsRecorded steps := by
  induction steps with
  | nil => rfl
  | cons step steps ih => cases step <;> simpa using ih

/-- A job sends batches in turn if the tasks that it follows do. -/
theorem Follows.inTurn {job : Job Unit} (follows : Follows client job tasks) (comment : Value)
    (inTurn : InTurn client server earlier first second done more
      (Task.execute client server earlier comment tasks)) :
    InTurn client server earlier first second done more (job.run server earlier) := by
  rcases Prod.mk.inj (follows comment server earlier) with ⟨ended, same⟩
  have requests := congrArg requestsSent same
  have effects := congrArg effectsRecorded same
  rw [requestsSent_unsaid] at requests
  rw [effectsRecorded_unsaid] at effects
  constructor
  · intro fault failed
    obtain ⟨fails, sent, recorded⟩ := inTurn.refused fault failed
    exact ⟨by rw [ended, fails]; rfl, requests.trans sent, effects.trans recorded⟩
  · intro passed
    exact requests.trans (inTurn.sends passed)
  · intro passed fault failed
    obtain ⟨fails, recorded⟩ := inTurn.fails passed fault failed
    exact ⟨by rw [ended, fails]; rfl, effects.trans recorded⟩
  · intro passed passes
    obtain ⟨⟨result, finished⟩, recorded⟩ := inTurn.passes passed passes
    exact ⟨⟨(), by rw [ended, finished]; rfl⟩, effects.trans recorded⟩

end Runs

end SlashBot

import SlashBot.Proofs.Following

/-!
# The origin of faults

Only what is done with the text of a configuration can end in a fault that blames the
configuration. Everything else, from reading JSON to applying an action set, fails for
other reasons, and this is shown along the structure of each of these computations.
-/

namespace SlashBot

open SlashBot.Template

/-- If an outcome is a fault, then the fault has a property. -/
def FaultsAre {α : Type} (property : Fault → Prop) (outcome : Except Fault α) : Prop :=
  ∀ fault, outcome = .error fault → property fault

/-- The fault is no mistake in the configuration. -/
def Fault.Foreign (fault : Fault) : Prop := fault.isConfigFault = false

section Outcomes

variable {α β : Type} {property : Fault → Prop}

theorem faultsAre_ok (result : α) : FaultsAre property (.ok result) := by
  intro fault failed
  cases failed

theorem faultsAre_error {fault : Fault} (holds : property fault) :
    FaultsAre property (.error fault : Except Fault α) := by
  intro other failed
  cases failed
  exact holds

theorem faultsAre_ite {condition : Prop} [Decidable condition] {first second : Except Fault α}
    (positive : FaultsAre property first) (negative : FaultsAre property second) :
    FaultsAre property (if condition then first else second) := by
  split
  · exact positive
  · exact negative

theorem FaultsAre.bind {outcome : Except Fault α} {next : α → Except Fault β}
    (first : FaultsAre property outcome) (second : ∀ result, FaultsAre property (next result)) :
    FaultsAre property (outcome >>= next) := by
  cases outcome with
  | error fault => exact faultsAre_error (first fault rfl)
  | ok result => exact second result

theorem FaultsAre.map {outcome : Except Fault α} (image : α → β)
    (faults : FaultsAre property outcome) : FaultsAre property (outcome.map image) := by
  cases outcome with
  | error fault => exact faultsAre_error (faults fault rfl)
  | ok result => exact faultsAre_ok _

theorem faultsAre_mapM {image : α → Except Fault β} {items : List α}
    (each : ∀ item, FaultsAre property (image item)) : FaultsAre property (items.mapM image) := by
  induction items with
  | nil => exact faultsAre_ok []
  | cons item items ih =>
      rw [List.mapM_cons]
      exact (each item).bind fun _ => ih.bind fun _ => faultsAre_ok _

theorem faultsAre_foldlM {next : β → α → Except Fault β} {items : List α} {start : β}
    (each : ∀ state item, FaultsAre property (next state item)) :
    FaultsAre property (items.foldlM next start) := by
  induction items generalizing start with
  | nil => exact faultsAre_ok start
  | cons item items ih =>
      rw [List.foldlM_cons]
      exact (each start item).bind fun _ => ih

end Outcomes

/-! ## Reading JSON and records -/

namespace Json

theorem foreign_readUnsigned (negative : Bool) (text : List Char) :
    FaultsAre Fault.Foreign (readUnsigned negative text) := by
  simp only [readUnsigned]
  exact faultsAre_ite (faultsAre_error rfl)
    (faultsAre_ite (faultsAre_ite (faultsAre_error rfl) (faultsAre_ok _)) (faultsAre_ok _))

theorem foreign_readAtom (text : List Char) : FaultsAre Fault.Foreign (readAtom text) := by
  simp only [readAtom]
  split
  · exact faultsAre_ok _
  · split
    · split
      · exact faultsAre_ok _
      · exact faultsAre_error rfl
    · exact foreign_readUnsigned true _
    · exact foreign_readUnsigned false _

/-- The three readers call each other, so this is one induction on the fuel. -/
theorem foreign_readers (fuel : Nat) :
    (∀ text, FaultsAre Fault.Foreign (readValue fuel text)) ∧
      (∀ reversed text, FaultsAre Fault.Foreign (readItems fuel reversed text)) ∧
      ∀ entries text, FaultsAre Fault.Foreign (readEntries fuel entries text) := by
  induction fuel with
  | zero =>
      exact ⟨fun _ => faultsAre_error rfl, fun _ _ => faultsAre_error rfl,
        fun _ _ => faultsAre_error rfl⟩
  | succ fuel ih =>
      rcases ih with ⟨value, items, entries⟩
      refine ⟨?_, ?_, ?_⟩
      · intro text
        simp only [readValue]
        split
        · split
          · exact faultsAre_ok _
          · exact items _ _
        · split
          · exact faultsAre_ok _
          · exact entries _ _
        · exact foreign_readAtom _
      · intro reversed text
        rw [readItems]
        cases read : readValue fuel text with
        | error fault => exact faultsAre_error (value text fault read)
        | ok found =>
            dsimp only
            split
            · exact items _ _
            · exact faultsAre_ok _
            · exact faultsAre_error rfl
      · intro known text
        simp only [readEntries]
        split
        · split
          · exact faultsAre_error rfl
          · split
            · rename_i rest _
              cases read : readValue fuel (skipSpace rest) with
              | error fault => exact faultsAre_error (value _ fault read)
              | ok found =>
                  dsimp only
                  split
                  · exact entries _ _
                  · exact faultsAre_ok _
                  · exact faultsAre_error rfl
            · exact faultsAre_error rfl
        · exact faultsAre_error rfl

theorem foreign_ofOctets (octets : List UInt8) : FaultsAre Fault.Foreign (ofOctets octets) := by
  rw [ofOctets]
  split
  · rename_i text _
    rw [ofDocument]
    cases read : readValue (2 * text.length + 2) (skipSpace text) with
    | error fault => exact faultsAre_error ((foreign_readers _).1 _ fault read)
    | ok found =>
        exact faultsAre_ite (faultsAre_ok _) (faultsAre_error rfl)
  · exact faultsAre_error rfl

end Json

namespace Value

theorem foreign_entry (name : String) (record : Value) :
    FaultsAre Fault.Foreign (record.entry name) := by
  cases record with
  | map entries => exact faultsAre_ok _
  | _ => exact faultsAre_error rfl

theorem foreign_member (name : String) (record : Value) :
    FaultsAre Fault.Foreign (record.member name) := by
  cases record with
  | map entries =>
      dsimp only [member]
      cases field? entries name with
      | some value => exact faultsAre_ok value
      | none => exact faultsAre_error rfl
  | _ => exact faultsAre_error rfl

end Value

namespace Target

theorem foreign_members (name : String) (value : Value) :
    FaultsAre Fault.Foreign (members name value) := by
  simp only [members]
  refine faultsAre_ite (faultsAre_ok _) ?_
  split
  · exact faultsAre_mapM fun record => record.foreign_member name
  · exact faultsAre_error rfl

theorem foreign_login (person : Value) : FaultsAre Fault.Foreign (login person) := by
  rw [login]
  split
  · exact faultsAre_ok _
  · exact faultsAre_error rfl

theorem foreign_ofRecord (record : Value) : FaultsAre Fault.Foreign (ofRecord record) := by
  apply (record.foreign_member "number").bind
  intro number
  split
  · exact (foreign_members _ _).bind fun _ => (foreign_members _ _).bind fun _ =>
      (foreign_login _).bind fun _ => faultsAre_ok _
  · exact faultsAre_error rfl

end Target

/-! ## Rendering templates -/

namespace Template

theorem foreign_fault (flaw : Flaw) (breaks : Nat) (reset : Option Mark) :
    (flaw.fault breaks reset).Foreign := by
  cases flaw <;> rfl

namespace Scope

theorem foreign_part? (scope : Scope) (name : List Char) :
    FaultsAre Fault.Foreign (scope.part? name) := by
  unfold part?
  dsimp only
  split
  · split <;> exact faultsAre_ok _
  · exact faultsAre_ok _
  · exact faultsAre_ok _
  · exact faultsAre_ok _
  · exact faultsAre_ok _
  · exact faultsAre_ite (faultsAre_error rfl) (faultsAre_ok _)

theorem foreign_walk (scope : Scope) (names : List (List Char)) :
    FaultsAre Fault.Foreign (scope.walk names) := by
  induction names generalizing scope with
  | nil => exact faultsAre_ok _
  | cons name names ih =>
      apply (scope.foreign_part? name).bind
      intro part
      cases part with
      | some part => exact ih part
      | none => exact faultsAre_ok _

theorem foreign_lookup (key : List Char) (scopes : List Scope) :
    FaultsAre Fault.Foreign (lookup key scopes) := by
  have searching (names : List (List Char)) (scopes : List Scope) :
      FaultsAre Fault.Foreign (search names scopes) := by
    induction scopes with
    | nil => exact faultsAre_ok _
    | cons scope scopes ih =>
        apply (scope.foreign_walk names).bind
        intro found
        cases found with
        | some found => exact faultsAre_ok _
        | none => exact ih
  simp only [lookup]
  split
  · exact faultsAre_ok _
  · exact searching _ _

end Scope

theorem foreign_printedText (key : List Char) (scopes : List Scope) :
    FaultsAre Fault.Foreign (printedText key scopes) := by
  apply (Scope.foreign_lookup key scopes).bind
  intro found
  split <;> exact faultsAre_ok _

theorem foreign_renderPieces (fuel : Nat) (place : Place) (pieces : Pieces) :
    FaultsAre Fault.Foreign (renderPieces fuel place pieces) := by
  induction fuel generalizing place pieces with
  | zero => exact faultsAre_ok _
  | succ fuel ih =>
      rcases pieces with ⟨found, ending⟩
      cases found with
      | nil =>
          cases ending with
          | complete => exact faultsAre_ok _
          | broken flaw breaks => exact faultsAre_error (foreign_fault flaw breaks _)
      | cons located rest =>
          rcases place with ⟨scopes, reset, readUpTo⟩
          rcases located with ⟨piece, mark⟩
          cases scopes with
          | nil => exact faultsAre_error rfl
          | cons scope outer =>
              cases piece with
              | leave key => exact ih _ _
              | enter key =>
                  refine faultsAre_ite (ih _ _) ?_
                  cases looked : Scope.lookup key (scope :: outer) with
                  | error fault => exact faultsAre_error (Scope.foreign_lookup _ _ fault looked)
                  | ok found =>
                      dsimp only
                      cases found.items? with
                      | none => exact ih _ _
                      | some items =>
                          dsimp only
                          split
                          · exact faultsAre_error (foreign_fault _ _ _)
                          · split
                            · rename_i repeated
                              refine faultsAre_error (faultsAre_foldlM ?_ _ repeated)
                              intro _ _
                              exact (ih _ _).bind fun _ => faultsAre_ok _
                            · exact (ih _ _).map _
              | enterUnless key =>
                  refine faultsAre_ite (ih _ _) ?_
                  cases looked : Scope.lookup key (scope :: outer) with
                  | error fault => exact faultsAre_error (Scope.foreign_lookup _ _ fault looked)
                  | ok found => exact ih _ _
              | literal text => exact faultsAre_ite (ih _ _) ((ih _ _).map _)
              | escaped key =>
                  refine faultsAre_ite (ih _ _) ?_
                  cases printed : printedText key (scope :: outer) with
                  | error fault => exact faultsAre_error (foreign_printedText _ _ fault printed)
                  | ok text => exact (ih _ _).map _
              | verbatim key =>
                  refine faultsAre_ite (ih _ _) ?_
                  cases looked : Scope.lookup key (scope :: outer) with
                  | error fault => exact faultsAre_error (Scope.foreign_lookup _ _ fault looked)
                  | ok found => exact (ih _ _).map _
              | insert name =>
                  exact faultsAre_ite (ih _ _) (faultsAre_ite (faultsAre_error rfl) (ih _ _))
              | ignored => exact faultsAre_ite (ih _ _) (ih _ _)

theorem foreign_render (template : String) (context : Context) :
    FaultsAre Fault.Foreign (render template context) :=
  (foreign_renderPieces _ _ _).map _

end Template

/-! ## Asking the service -/

namespace Url

theorem foreign_make (scheme authority path : List Char) (query : Option (List Char)) :
    FaultsAre Fault.Foreign (make scheme authority path query) :=
  faultsAre_ite (faultsAre_error rfl) (faultsAre_ok _)

theorem foreign_ofText (text : List Char) : FaultsAre Fault.Foreign (ofText text) := by
  have settled (scheme authority : List Char) :
      FaultsAre Fault.Foreign (settleAuthority scheme authority) := by
    refine faultsAre_ite (faultsAre_ok _) ?_
    split
    · exact faultsAre_error rfl
    · exact faultsAre_ite (faultsAre_ok _) (faultsAre_ok _)
  exact faultsAre_ite (faultsAre_error rfl)
    ((settled _ _).bind fun _ => foreign_make _ _ _ _)

theorem foreign_resolve (base url : Url) : FaultsAre Fault.Foreign (base.resolve url) :=
  faultsAre_ite (faultsAre_ok _) (faultsAre_ite (faultsAre_error rfl) (foreign_make _ _ _ _))

end Url

namespace Client

theorem foreign_request (client : Client) (call : Call) :
    FaultsAre Fault.Foreign (client.request call) := by
  apply (Url.foreign_ofText _).bind
  intro relative
  apply (Url.foreign_resolve _ _).bind
  intro url
  exact faultsAre_ite (faultsAre_ok _) (faultsAre_error rfl)

theorem foreign_outcomeOf (call : Call) (reply : Reply) :
    FaultsAre Fault.Foreign (outcomeOf call reply) := by
  cases reply with
  | unreachable => exact faultsAre_error rfl
  | response status octets => exact faultsAre_ite (faultsAre_error rfl) (faultsAre_ok _)

theorem foreign_ask (client : Client) (server : Server) (earlier : List Request) (call : Call) :
    FaultsAre Fault.Foreign (client.ask server earlier call).1 := by
  rw [ask]
  cases made : client.request call with
  | error fault => exact faultsAre_error (client.foreign_request call fault made)
  | ok request => exact foreign_outcomeOf _ _

theorem foreign_checkQuery (octets : List UInt8) :
    FaultsAre Fault.Foreign (checkQuery octets) := by
  apply (Json.foreign_ofOctets octets).bind
  intro reply
  apply (reply.foreign_entry "errors").bind
  intro errors
  split
  · exact faultsAre_error rfl
  · exact (reply.foreign_member "data").bind fun _ => faultsAre_ok _

end Client

/-! ## Applying an action set -/

/-- If running a job ends in a fault, then the fault has a property. -/
def Job.FaultsAre {α : Type} (property : Fault → Prop) (job : Job α) : Prop :=
  ∀ server earlier, SlashBot.FaultsAre property (job.run server earlier).1

namespace Job

variable {α β : Type} {property : Fault → Prop}

theorem faultsAre_ofExcept {outcome : Except Fault α}
    (faults : SlashBot.FaultsAre property outcome) : FaultsAre property (ofExcept outcome) := by
  intro server earlier
  rw [run_ofExcept]
  exact faults

theorem faultsAre_done (result : α) : FaultsAre property (done result) :=
  fun _ _ => faultsAre_ok result

theorem faultsAre_tell (entry : Entry) : FaultsAre property (tell entry) :=
  fun _ _ => faultsAre_ok ()

theorem faultsAre_apply (effect : Effect) : FaultsAre property (apply effect) :=
  fun _ _ => faultsAre_ok ()

theorem FaultsAre.bind {job : Job α} {next : α → Job β} (first : FaultsAre property job)
    (second : ∀ result, FaultsAre property (next result)) :
    FaultsAre property (job.bind next) := by
  intro server earlier
  have faults := first server earlier
  rw [run_bind]
  revert faults
  rcases job.run server earlier with ⟨fault | result, steps⟩
  · intro faults
    exact faultsAre_error (faults fault rfl)
  · intro _
    exact second result server _

theorem faultsAre_forM {work : β → Job Unit} {items : List β}
    (each : ∀ item, FaultsAre property (work item)) : FaultsAre property (items.forM work) := by
  induction items with
  | nil => exact faultsAre_done ()
  | cons item items ih => exact (each item).bind fun _ => ih

end Job

namespace Client

theorem foreign_fetch (client : Client) (call : Call) :
    Job.FaultsAre Fault.Foreign (client.fetch call) := by
  intro server earlier
  rw [run_fetch]
  exact client.foreign_ask server earlier call

theorem foreign_order (client : Client) (call : Call) :
    Job.FaultsAre Fault.Foreign (client.order call) :=
  (client.foreign_fetch call).bind fun _ => Job.faultsAre_done ()

theorem foreign_query (client : Client) (call : Call) :
    Job.FaultsAre Fault.Foreign (client.query call) :=
  (client.foreign_fetch call).bind fun octets =>
    Job.faultsAre_ofExcept (foreign_checkQuery octets)

theorem foreign_createComment (client : Client) (number : Value) (text : String) :
    Job.FaultsAre Fault.Foreign (client.createComment number text) :=
  (client.foreign_fetch _).bind fun octets =>
    (Job.faultsAre_ofExcept (Json.foreign_ofOctets octets)).bind fun record =>
      Job.faultsAre_ofExcept (record.foreign_member "id")

theorem foreign_fetchIssue (client : Client) (number : Value) :
    Job.FaultsAre Fault.Foreign (client.fetchIssue number) :=
  (client.foreign_fetch _).bind fun octets => Job.faultsAre_ofExcept (Json.foreign_ofOctets octets)

end Client

namespace Invocation

variable (invocation : Invocation) (client : Client) (actions : ActionSet)

theorem foreign_textsOf (values : List Value) : FaultsAre Fault.Foreign (textsOf values) := by
  apply faultsAre_mapM
  intro value
  cases value with
  | str text => exact faultsAre_ok text
  | _ => exact faultsAre_error rfl

theorem foreign_changes (specifiers : List String) (context : Context) (people : Bool) :
    FaultsAre Fault.Foreign (Changes.ofSpecifiers specifiers context people) :=
  ((faultsAre_mapM fun specifier => foreign_render specifier context).bind fun _ =>
    faultsAre_ok _).bind fun _ => faultsAre_ok _

theorem foreign_bring {work : Job Unit} (effect : Effect) (wanted : Bool) (icon message : String)
    (faults : work.FaultsAre Fault.Foreign) :
    (bring effect wanted icon message work).FaultsAre Fault.Foreign := by
  cases wanted with
  | false => exact Job.faultsAre_done ()
  | true =>
      exact (Job.faultsAre_tell _).bind fun _ => faults.bind fun _ => Job.faultsAre_apply effect

theorem foreign_comment (text : String) (reactions : List String) :
    (invocation.comment client text reactions).FaultsAre Fault.Foreign := by
  apply (client.foreign_createComment _ text).bind
  intro id
  refine (Job.faultsAre_apply _).bind ?_
  intro _
  apply Job.faultsAre_forM
  intro name
  rw [react]
  split
  · exact (client.foreign_order _).bind fun _ => Job.faultsAre_apply _
  · exact Job.faultsAre_tell _

theorem foreign_applyComment :
    (invocation.applyComment client actions).FaultsAre Fault.Foreign := by
  rw [applyComment]
  split
  · exact Job.faultsAre_done ()
  · refine (Job.faultsAre_ofExcept (foreign_render _ _)).bind ?_
    intro text
    refine (Job.faultsAre_tell _).bind ?_
    intro _
    have commented := invocation.foreign_comment client text actions.reactions
    unfold whileUnlocked
    dsimp only
    split
    · exact (client.foreign_order _).bind fun _ => commented.bind fun _ => client.foreign_order _
    · exact commented

theorem foreign_askEach (server : Server) (number : Value) (earlier : List Request)
    (names : List String) :
    ∀ outcome ∈ (askEach client server number earlier names).1,
      FaultsAre Fault.Foreign outcome := by
  induction names generalizing earlier with
  | nil => exact nofun
  | cons name names ih =>
      intro outcome member
      rcases List.mem_cons.mp member with rfl | later
      · exact client.foreign_ask _ _ _
      · exact ih _ outcome later

theorem mem_of_firstFault? {α : Type} {outcomes : List (Except Fault α)} {fault : Fault}
    (found : firstFault? outcomes = some fault) : .error fault ∈ outcomes := by
  induction outcomes with
  | nil => cases found
  | cons outcome outcomes ih =>
      cases outcome with
      | error other =>
          cases found
          exact List.mem_cons_self
      | ok result => exact List.mem_cons_of_mem _ (ih found)

theorem foreign_removeEach (names : List String) :
    (invocation.removeEach client names).FaultsAre Fault.Foreign := by
  intro server earlier fault failed
  rw [removeEach, Job.bind_eq, Job.run_bind, run_removals, Run.andThen_ok, run_forM_ofExcept,
    firstFault?_map] at failed
  revert failed
  cases found :
    firstFault? (askEach client server invocation.target.number earlier names).1 with
  | none =>
      intro failed
      cases failed
  | some first =>
      intro failed
      cases failed
      exact foreign_askEach client server _ earlier names _ (mem_of_firstFault? found) _ rfl

/-- No fault of applying an action set is a mistake in the configuration. -/
theorem foreign_apply : (invocation.apply client actions).FaultsAre Fault.Foreign := by
  have state : (invocation.applyState client actions).FaultsAre Fault.Foreign :=
    (foreign_bring _ _ _ _ (client.foreign_order _)).bind fun _ =>
      foreign_bring _ _ _ _ (client.foreign_order _)
  have lock : (invocation.applyLock client actions).FaultsAre Fault.Foreign :=
    (foreign_bring _ _ _ _ (client.foreign_order _)).bind fun _ =>
      foreign_bring _ _ _ _ (client.foreign_order _)
  have labels : (invocation.applyLabels client actions).FaultsAre Fault.Foreign :=
    (Job.faultsAre_ofExcept (foreign_changes _ _ _)).bind fun _ =>
      (foreign_bring _ _ _ _ (client.foreign_order _)).bind fun _ =>
        (Job.faultsAre_ofExcept (foreign_textsOf _)).bind fun _ =>
          foreign_bring _ _ _ _ (invocation.foreign_removeEach client _)
  have people : (invocation.applyPeople client actions).FaultsAre Fault.Foreign :=
    (Job.faultsAre_ofExcept (foreign_changes _ _ _)).bind fun _ =>
      ((Job.faultsAre_ofExcept (foreign_textsOf _)).bind fun _ =>
        foreign_bring _ _ _ _ (client.foreign_order _)).bind fun _ =>
          foreign_bring _ _ _ _ (client.foreign_order _)
  have pins : (invocation.applyPins client actions).FaultsAre Fault.Foreign :=
    (foreign_bring _ _ _ _ (client.foreign_query _)).bind fun _ =>
      foreign_bring _ _ _ _ (client.foreign_query _)
  rw [apply]
  split
  · exact Job.faultsAre_tell _
  · exact pins.bind fun _ => (invocation.foreign_applyComment client actions).bind fun _ =>
      state.bind fun _ => lock.bind fun _ => labels.bind fun _ => people.bind fun _ =>
        foreign_bring _ _ _ _ (client.foreign_order _)

end Invocation

end SlashBot

import SlashBot.Proofs.Batch
import SlashBot.Proofs.Conversation
import SlashBot.Proofs.Roster

/-!
# Labelling

Labels are added with one request and removed with one for each name. If the addition fails,
nothing is removed; otherwise every removal is sent, and the first failure among them ends
the whole invocation. If all goes well, the labels are those that were there and those that
were added, without the removed ones. A label that is both added and removed is therefore
lost, and with a star these are all the labels that were there before.
-/

namespace SlashBot

open Conversation

/-! ## Names without duplicates -/

/-- What comes first among the names that are kept comes first among all of them. -/
theorem idxOf_lt_of_filter {keep : String → Bool} {name other : String} {names : List String}
    (kept : keep name = true) (alsoKept : keep other = true)
    (first : (names.filter keep).idxOf name < (names.filter keep).idxOf other) :
    names.idxOf name < names.idxOf other := by
  induction names with
  | nil => simp at first
  | cons head names ih =>
      by_cases isName : head = name
      · subst isName
        rw [List.filter_cons_of_pos kept, List.idxOf_cons_self] at first
        rw [List.idxOf_cons_self]
        have differs : head ≠ other := by
          rintro rfl
          simp at first
        rw [List.idxOf_cons_ne _ differs]
        exact Nat.succ_pos _
      · have differs : head ≠ other := by
          rintro rfl
          rw [List.filter_cons_of_pos alsoKept, List.idxOf_cons_self] at first
          exact Nat.not_lt_zero _ first
        rw [List.idxOf_cons_ne _ isName, List.idxOf_cons_ne _ differs]
        apply Nat.succ_lt_succ
        apply ih
        cases keeps : keep head with
        | false => rwa [List.filter_cons_of_neg (by simp [keeps])] at first
        | true =>
            rw [List.filter_cons_of_pos keeps, List.idxOf_cons_ne _ isName,
              List.idxOf_cons_ne _ differs] at first
            exact Nat.lt_of_succ_lt_succ first

/-- Removing duplicates keeps the order in which the names first occur. -/
theorem pairwise_idxOf_eraseDups (names : List String) :
    names.eraseDups.Pairwise fun name other => names.idxOf name < names.idxOf other := by
  cases names with
  | nil => simp
  | cons head names =>
      -- The names behind the first one lose their own duplicates after it was taken out of them.
      have others := pairwise_idxOf_eraseDups (names.filter fun name => !name == head)
      have differs {name : String}
          (member : name ∈ (names.filter fun name => !name == head).eraseDups) : head ≠ name := by
        simp only [List.mem_eraseDups, List.mem_filter] at member
        rintro rfl
        simp at member
      rw [List.eraseDups_cons, List.pairwise_cons]
      constructor
      · intro name member
        rw [List.idxOf_cons_self, List.idxOf_cons_ne _ (differs member)]
        exact Nat.succ_pos _
      · apply others.imp_of_mem
        intro name other member otherMember first
        rw [List.idxOf_cons_ne _ (differs member), List.idxOf_cons_ne _ (differs otherMember)]
        apply Nat.succ_lt_succ
        exact idxOf_lt_of_filter (by simpa using (differs member).symm)
          (by simpa using (differs otherMember).symm) first
termination_by names.length
decreasing_by
  simp only [List.length_cons]
  exact Nat.lt_add_one_of_le (List.length_filter_le _ _)

namespace Invocation

/-! ## The calls for labels -/

/-- The call that adds labels, if there are any to add. -/
def labelAdditions (invocation : Invocation) (changes : Changes) : List Call :=
  if !changes.add.isEmpty then [.addLabels invocation.target.number changes.add] else []

/-- The calls that remove labels, one for each. -/
def labelRemovals (invocation : Invocation) (names : List String) : List Call :=
  names.map (.removeLabel invocation.target.number)

variable (invocation : Invocation) (actions : ActionSet) {client : Client} {server : Server}
  {earlier : List Request} {changes : Changes} {current : List String}

/-- The labels are added and removed by two batches in turn. -/
theorem inTurn_applyLabels (labelled : invocation.target.labels = current.map .str)
    (made : Changes.ofSpecifiers actions.labels invocation.arguments false = .ok changes) :
    InTurn client server earlier (invocation.labelAdditions changes)
      (invocation.labelRemovals (unlabelled changes current))
      (if !changes.add.isEmpty then [.addLabels] else [])
      (if !(unlabelled changes current).isEmpty then [.removeLabels] else [])
      ((invocation.applyLabels client actions).run server earlier) := by
  apply (invocation.follows_planLabels actions).inTurn .null
  rw [planLabels_eq labelled made]
  apply (batch_planIf _ _ fun _ => rfl).inTurn
  intro newest
  cases unlabelled changes current with
  | nil => exact batch_nothing
  | cons name names => exact batch_removeEach _ _ _

/-! ## What comes before and after -/

/-- What is done before the labels. -/
def beforeLabels (client : Client) : Job Unit := do
  invocation.applyPins client actions
  invocation.applyComment client actions
  invocation.applyState client actions
  invocation.applyLock client actions

/-- What is done after the labels. -/
def afterLabels (client : Client) : Job Unit := do
  invocation.applyPeople client actions
  invocation.applyDispatch client actions

theorem apply_eq_around_labels (some : actions.isEmpty = false) :
    invocation.apply client actions =
      (invocation.beforeLabels actions client).bind fun _ =>
        (invocation.applyLabels client actions).bind fun _ =>
          invocation.afterLabels actions client := by
  simp only [apply, some, Bool.false_eq_true, if_false, beforeLabels, afterLabels, Job.bind_eq,
    Job.bind_assoc]

end Invocation

/-- The call belongs to what is done after the labels: it is about the assignees, or it
dispatches an event. -/
def Call.comesAfterLabels : (call : Call) → Bool
  | addAssignees .. | removeAssignees .. | dispatch .. => true
  | _ => false

namespace Invocation

variable (invocation : Invocation) (actions : ActionSet) {client : Client} {server : Server}
  {earlier : List Request}

/-- Nothing that belongs behind the labels is sent before them. -/
theorem early_beforeLabels {request : Request}
    (sent : request ∈
      requestsSent ((invocation.beforeLabels actions client).run server earlier).2) :
    request.call.comesAfterLabels = false := by
  have follows : Follows client (invocation.beforeLabels actions client) _ :=
    (invocation.follows_planPins actions).bind <|
    (invocation.follows_planComment actions).bind <|
    (invocation.follows_planState actions).bind <|
    invocation.follows_planLock actions
  have early : EachCall (fun call => call.comesAfterLabels = false) _ :=
    (invocation.eachCall_planPins actions (fun _ => rfl) fun _ => rfl).append <|
    (invocation.eachCall_planComment actions (fun _ _ => rfl) (fun _ _ => rfl) (fun _ _ => rfl)
      fun _ => rfl).append <|
    (invocation.eachCall_planState actions fun _ _ => rfl).append <|
    invocation.eachCall_planLock actions (fun _ _ => rfl) fun _ => rfl
  exact sent_run early follows sent

theorem early_applyLabels {request : Request}
    (sent : request ∈
      requestsSent ((invocation.applyLabels client actions).run server earlier).2) :
    request.call.comesAfterLabels = false := by
  have early : EachCall (fun call => call.comesAfterLabels = false) _ :=
    invocation.eachCall_planLabels actions (fun _ _ => rfl) fun _ _ => rfl
  exact sent_run early (invocation.follows_planLabels actions) sent

/-- An action set whose labels fail is not empty. -/
theorem isEmpty_of_labels_failed {fault : Fault}
    (failed : ((invocation.applyLabels client actions).run server earlier).1 = .error fault) :
    actions.isEmpty = false := by
  cases empty : actions.isEmpty with
  | false => rfl
  | true =>
      rw [ActionSet.eq_of_isEmpty empty] at failed
      cases failed

/-- A fault among the labels ends the work. -/
theorem run_apply_of_labels_failed {opening : List Step} {fault : Fault}
    (opened : (invocation.beforeLabels actions client).run server earlier = (.ok (), opening))
    (failed : ((invocation.applyLabels client actions).run server
      (earlier ++ requestsSent opening)).1 = .error fault) :
    (invocation.apply client actions).run server earlier =
      (.error fault, opening ++ ((invocation.applyLabels client actions).run server
        (earlier ++ requestsSent opening)).2) := by
  rw [invocation.apply_eq_around_labels actions (invocation.isEmpty_of_labels_failed actions failed),
    Job.run_bind, opened, Run.andThen_ok, Job.run_bind]
  revert failed
  rcases (invocation.applyLabels client actions).run server (earlier ++ requestsSent opening) with
    ⟨cause | result, steps⟩
  · rintro ⟨⟩
    rfl
  · rintro ⟨⟩

/-! ## Fanning out -/

/-- What a run of the labels does, where `changes` are asked for and `current` are the labels
that are there. -/
structure FansOut (client : Client) (server : Server) (earlier : List Request)
    (changes : Changes) (current : List String) (run : Run Unit) : Prop where
  /-- One request at most adds labels. If it fails, it is the only one; otherwise there is a
  request for every label to remove, and all of these are sent before the first failure among
  them counts. -/
  inTurn : InTurn client server earlier (invocation.labelAdditions changes)
    (invocation.labelRemovals (unlabelled changes current))
    (if !changes.add.isEmpty then [.addLabels] else [])
    (if !(unlabelled changes current).isEmpty then [.removeLabels] else []) run
  /-- No label is removed twice, none is left out, and the order is that in which they are first
  named. -/
  each : (unlabelled changes current).Pairwise
      (fun name other => (changes.removals current).idxOf name <
        (changes.removals current).idxOf other) ∧
    ∀ name, name ∈ unlabelled changes current ↔ name ∈ changes.removals current
  /-- The removal is recorded if there was something to remove and nothing failed. -/
  recorded : .removeLabels ∈ effectsRecorded run.2 ↔
    unlabelled changes current ≠ [] ∧ run.1 = .ok ()
  /-- A failure ends the invocation before anyone is assigned and anything is dispatched. -/
  stops : ∀ start opening fault, earlier = start ++ requestsSent opening →
    (invocation.beforeLabels actions client).run server start = (.ok (), opening) →
    run.1 = .error fault →
    (invocation.apply client actions).run server start = (.error fault, opening ++ run.2) ∧
      ∀ request ∈ requestsSent (opening ++ run.2), request.call.comesAfterLabels = false
  /-- Without a star, the labels end up as those that were there and those that were added,
  without the removed ones. -/
  settles : "*" ∉ changes.remove → run.1 = .ok () →
    track labelsAfter current.toFinset run.2 =
      (current.toFinset ∪ changes.add.toFinset) \ changes.remove.toFinset

/-- The removal of labels is recorded if there was one and nothing failed. -/
theorem recorded_of_inTurn {first second : List Call} {done more : List Effect} {run : Run Unit}
    (inTurn : InTurn client server earlier first second done more run)
    (fresh : .removeLabels ∉ done) :
    .removeLabels ∈ effectsRecorded run.2 ↔ .removeLabels ∈ more ∧ run.1 = .ok () := by
  rcases client.failsFirst_or_passes server earlier first with ⟨fault, failed⟩ | passed
  · obtain ⟨ended, -, none⟩ := inTurn.refused fault failed
    simp [none, ended]
  rcases client.failsFirst_or_passes server (earlier ++ client.requests first) second with
    ⟨fault, failed⟩ | passes
  · obtain ⟨ended, recorded⟩ := inTurn.fails passed fault failed
    simp [recorded, ended, fresh]
  · obtain ⟨⟨_, ended⟩, recorded⟩ := inTurn.passes passed passes
    simp [recorded, ended, fresh]

end Invocation

/-- A command on an issue with two labels. -/
def tidying : Invocation :=
  { greeting with
    command := ⟨"tidy", ["stale"]⟩
    target := { greeting.target with labels := ["stale", "triage"].map .str } }

/-- An action set that replaces labels, and asks for one of the removals twice. -/
def tidied : ActionSet :=
  { labels := ["new -\x7b\x7bargs.0\x7d\x7d", "-triage -stale"], dispatch := true }

/-- A server that refuses to remove one of the labels. -/
def refuseRemoval (refused : String) : Server := fun earlier request =>
  match request.call with
  | .removeLabel _ name => if name = refused then .response 404 [] else acceptAll earlier request
  | _ => acceptAll earlier request

/-- If a star asks for the removal of all labels, a run that ends well leaves those that were
added and were not there before. The additions stay as a whole only if none of them was there:
unlike a person, a label that is added again is lost. -/
theorem Invocation.apply_settles_starred_labels (invocation : Invocation) (actions : ActionSet)
    (client : Client) (server : Server) (earlier : List Request) (words : List (List Char))
    (current : List String) (labelled : invocation.target.labels = current.map .str)
    (rendered : specifierWords actions.labels invocation.arguments = .ok words)
    (starred : ['*'] ∈ words ∨ ['-', '*'] ∈ words)
    (ended : ((invocation.apply client actions).run server earlier).1 = .ok ()) :
    track labelsAfter current.toFinset ((invocation.apply client actions).run server earlier).2 =
        (Changes.ofWords false words).add.toFinset \ current.toFinset ∧
      (track labelsAfter current.toFinset
          ((invocation.apply client actions).run server earlier).2 =
            (Changes.ofWords false words).add.toFinset ↔
        ∀ name ∈ (Changes.ofWords false words).add, name ∉ current) := by
  have made : Changes.ofSpecifiers actions.labels invocation.arguments false =
      .ok (Changes.ofWords false words) := by
    rw [Changes.ofSpecifiers, rendered]
    rfl
  have star : "*" ∈ (Changes.ofWords false words).remove := by
    rw [star_mem_remove_iff]
    tauto
  have settled : track labelsAfter current.toFinset
      ((invocation.apply client actions).run server earlier).2 =
        (Changes.ofWords false words).add.toFinset \ current.toFinset := by
    rw [(invocation.follows_plan actions).track_run (fun _ _ _ => rfl) ended,
      changes_plan_labels, changes_planLabels labelled made, Changes.removals_of_star star,
      Finset.union_sdiff_left]
  refine ⟨settled, ?_⟩
  rw [settled, Finset.sdiff_eq_self_iff_disjoint, Finset.disjoint_left]
  simp only [List.mem_toFinset]

/-- A label that was not there before replaces the others. -/
theorem Invocation.apply_settles_starred_labels_fresh :
    tidying.target.labels = ["stale", "triage"].map .str ∧
      specifierWords ["-* new"] tidying.arguments = .ok ["-*".toList, "new".toList] ∧
      ((tidying.apply sampleClient { labels := ["-* new"] }).run acceptAll []).1 = .ok () ∧
      track labelsAfter ["stale", "triage"].toFinset
        ((tidying.apply sampleClient { labels := ["-* new"] }).run acceptAll []).2 = {"new"} := by
  have ended : ((tidying.apply sampleClient { labels := ["-* new"] }).run acceptAll []).1 =
      .ok () := by decide +kernel
  have settled := tidying.apply_settles_starred_labels { labels := ["-* new"] } sampleClient
    acceptAll [] ["-*".toList, "new".toList] ["stale", "triage"] rfl rfl (.inr (by decide)) ended
  exact ⟨rfl, rfl, ended, settled.1⟩

/-- A label that was there and is added again is not there afterwards. -/
theorem Invocation.apply_loses_label :
    ((tidying.apply sampleClient { labels := ["* stale"] }).run acceptAll []).1 = .ok () ∧
      (Changes.ofWords false ["*".toList, "stale".toList]).add = ["stale"] ∧
      specifierWords ["* stale"] tidying.arguments = .ok ["*".toList, "stale".toList] ∧
      track labelsAfter ["stale", "triage"].toFinset
        ((tidying.apply sampleClient { labels := ["* stale"] }).run acceptAll []).2 = ∅ :=
  ⟨by decide +kernel, by decide, rfl, by decide +kernel⟩

end SlashBot

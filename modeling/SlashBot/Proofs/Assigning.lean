import Mathlib.Data.Finset.Lattice.Lemmas
import SlashBot.Proofs.Batch
import SlashBot.Proofs.Roster

/-!
# Assigning

People are unassigned with one request and assigned with another one behind it, and neither
is sent without a name. Because of this order someone who is both unassigned and assigned ends
up assigned. With a star the assignees are therefore those that were asked for, and asking
again changes nothing.
-/

namespace SlashBot

/-- Whoever is assigned by some changes is so after the same changes once more. -/
theorem Changes.assigned_again {changes : Changes} {current people : List String}
    (assigned : people.toFinset =
      (current.toFinset \ (changes.removals current).toFinset) ∪ changes.add.toFinset) :
    (people.toFinset \ (changes.removals people).toFinset) ∪ changes.add.toFinset =
      people.toFinset := by
  by_cases star : "*" ∈ changes.remove
  · rw [removals_of_star star, Finset.sdiff_self, Finset.empty_union] at assigned ⊢
    exact assigned.symm
  · rw [removals_of_no_star star] at assigned ⊢
    rw [assigned]
    ext name
    simp only [Finset.mem_union, Finset.mem_sdiff]
    tauto

namespace Invocation

/-- The call that unassigns people, if there are any to unassign. -/
def unassignments (invocation : Invocation) (names : List String) : List Call :=
  if !names.isEmpty then [.removeAssignees invocation.target.number names] else []

/-- The call that assigns people, if there are any to assign. -/
def assignments (invocation : Invocation) (names : List String) : List Call :=
  if !names.isEmpty then [.addAssignees invocation.target.number names] else []

section Applying

variable {invocation : Invocation} {actions : ActionSet} {client : Client} {server : Server}
  {earlier : List Request} {changes : Changes} {current : List String}

/-- The assignees are removed and added by two batches in turn. -/
theorem inTurn_applyPeople (client : Client) (server : Server) (earlier : List Request)
    (assigned : invocation.target.assignees = current.map .str)
    (made : Changes.ofSpecifiers actions.assign invocation.arguments true = .ok changes) :
    InTurn client server earlier (invocation.unassignments (changes.removals current))
      (invocation.assignments changes.add)
      (if !(changes.removals current).isEmpty then [.removeAssignees] else [])
      (if !changes.add.isEmpty then [.addAssignees] else [])
      ((invocation.applyPeople client actions).run server earlier) := by
  apply (invocation.follows_planPeople actions).inTurn .null
  rw [planPeople_eq assigned made]
  exact (batch_planIf _ _ fun _ => rfl).inTurn fun _ => batch_planIf _ _ fun _ => rfl

theorem track_applyPeople (assigned : invocation.target.assignees = current.map .str)
    (made : Changes.ofSpecifiers actions.assign invocation.arguments true = .ok changes)
    (ended : ((invocation.applyPeople client actions).run server earlier).1 = .ok ())
    (people : Finset String) :
    track assigneesAfter people ((invocation.applyPeople client actions).run server earlier).2 =
      (people \ (changes.removals current).toFinset) ∪ changes.add.toFinset := by
  rw [(invocation.follows_planPeople actions).track_run (fun _ _ _ => rfl) ended]
  exact changes_planPeople assigned made people

/-- The calls for people are a removal of some and then an addition of some. -/
theorem methods_sublist (invocation : Invocation) (removed added : List String) :
    ((invocation.unassignments removed ++ invocation.assignments added).map
      Call.method).Sublist [.delete, .post] := by
  rw [unassignments, assignments]
  cases removed with
  | nil =>
      cases added with
      | nil => simp
      | cons name names => exact (List.Sublist.refl _).cons _
  | cons other others =>
      cases added with
      | nil => exact (List.nil_sublist _).cons_cons _
      | cons name names => exact .refl _

theorem of_mem_assignments {removed added : List String} {call : Call}
    (member : call ∈ invocation.unassignments removed ++ invocation.assignments added) :
    call = .removeAssignees invocation.target.number removed ∧ removed ≠ [] ∨
      call = .addAssignees invocation.target.number added ∧ added ≠ [] := by
  rw [unassignments, assignments, List.mem_append] at member
  rcases member with inFirst | inSecond
  · cases removed with
    | nil => cases inFirst
    | cons name names => exact .inl ⟨List.mem_singleton.mp inFirst, by simp⟩
  · cases added with
    | nil => cases inSecond
    | cons name names => exact .inr ⟨List.mem_singleton.mp inSecond, by simp⟩

end Applying

/-- What a run of the assignments does, where `changes` are asked for and `current` are the
people who are assigned. -/
structure Reassigns (invocation : Invocation) (actions : ActionSet) (client : Client)
    (server : Server) (earlier : List Request) (changes : Changes) (current : List String)
    (run : Run Unit) : Prop where
  /-- One request at most unassigns people, and if it does not fail, one at most assigns
  people after it. -/
  inTurn : InTurn client server earlier (invocation.unassignments (changes.removals current))
    (invocation.assignments changes.add)
    (if !(changes.removals current).isEmpty then [.removeAssignees] else [])
    (if !changes.add.isEmpty then [.addAssignees] else []) run
  ordered : ((requestsSent run.2).map Request.method).Sublist [.delete, .post]
  /-- Both name the people that they are about, and no request is sent without a name. -/
  named : ∀ request ∈ requestsSent run.2,
    request.call = .removeAssignees invocation.target.number (changes.removals current) ∧
        changes.removals current ≠ [] ∨
      request.call = .addAssignees invocation.target.number changes.add ∧ changes.add ≠ []
  /-- The assignees end up as those that were there without the removed ones, and those that
  were added. -/
  settles : run.1 = .ok () →
    track assigneesAfter current.toFinset run.2 =
      (current.toFinset \ (changes.removals current).toFinset) ∪ changes.add.toFinset
  /-- With a star, those that were added replace the others. -/
  replaces : "*" ∈ changes.remove → run.1 = .ok () →
    track assigneesAfter current.toFinset run.2 = changes.add.toFinset
  /-- Doing the same again on a target with these assignees changes nothing. -/
  again : run.1 = .ok () →
    ∀ (later : Invocation) (server : Server) (earlier : List Request) (people : List String),
      later.arguments = invocation.arguments → later.target.assignees = people.map .str →
      people.toFinset = track assigneesAfter current.toFinset run.2 →
      ((later.applyPeople client actions).run server earlier).1 = .ok () →
      track assigneesAfter people.toFinset
        ((later.applyPeople client actions).run server earlier).2 = people.toFinset

end Invocation

/-- The assignees become those that were asked for, whatever the server replies, and stay so. -/
theorem Invocation.applyPeople_reassigns (invocation : Invocation) (actions : ActionSet)
    (client : Client) (server : Server) (earlier : List Request) (changes : Changes)
    (current : List String) (assigned : invocation.target.assignees = current.map .str)
    (made : Changes.ofSpecifiers actions.assign invocation.arguments true = .ok changes) :
    invocation.Reassigns actions client server earlier changes current
      ((invocation.applyPeople client actions).run server earlier) where
  inTurn := inTurn_applyPeople client server earlier assigned made
  ordered := by
    have sent := (inTurn_applyPeople client server earlier assigned made).calls_sublist.map
      Call.method
    rw [List.map_map] at sent
    exact sent.trans (invocation.methods_sublist _ _)
  named request sent := by
    have calls := (inTurn_applyPeople client server earlier assigned made).calls_sublist
    exact of_mem_assignments (calls.subset (List.mem_map_of_mem sent))
  settles ended := track_applyPeople assigned made ended _
  replaces star ended := by
    rw [track_applyPeople assigned made ended, Changes.removals_of_star star, Finset.sdiff_self,
      Finset.empty_union]
  again ended later server earlier people same refetched kept repeated := by
    rw [track_applyPeople assigned made ended] at kept
    rw [← same] at made
    rw [track_applyPeople refetched made repeated, Changes.assigned_again kept]

/-- A command on an issue that two people are assigned to. -/
def staffing : Invocation :=
  { greeting with
    command := ⟨"staff", ["@carol"]⟩
    target := { greeting.target with assignees := ["ada", "bob"].map .str } }

/-- An action set that hands an issue over. -/
def handover : ActionSet := { assign := ["\x7b\x7bargs.0\x7d\x7d -@bob @carol"] }

/-- The issue after it was handed over. -/
def staffed : Invocation :=
  { staffing with target := { greeting.target with assignees := ["carol", "ada"].map .str } }

theorem Invocation.applyPeople_reassigns_handover :
    staffing.target.assignees = ["ada", "bob"].map .str ∧
      Changes.ofSpecifiers handover.assign staffing.arguments true =
        .ok ⟨["carol", "carol"], ["bob"]⟩ ∧
      staffing.Reassigns handover sampleClient acceptAll [] ⟨["carol", "carol"], ["bob"]⟩
        ["ada", "bob"] ((staffing.applyPeople sampleClient handover).run acceptAll []) ∧
      track assigneesAfter ["ada", "bob"].toFinset
        ((staffing.applyPeople sampleClient handover).run acceptAll []).2 = {"ada", "carol"} ∧
      track assigneesAfter ["carol", "ada"].toFinset
        ((staffed.applyPeople sampleClient handover).run acceptAll []).2 = {"ada", "carol"} := by
  have reassigns := staffing.applyPeople_reassigns handover sampleClient acceptAll []
    ⟨["carol", "carol"], ["bob"]⟩ ["ada", "bob"] rfl rfl
  have ended : ((staffing.applyPeople sampleClient handover).run acceptAll []).1 = .ok () := by
    decide +kernel
  have settled : track assigneesAfter ["ada", "bob"].toFinset
      ((staffing.applyPeople sampleClient handover).run acceptAll []).2 = {"ada", "carol"} := by
    rw [reassigns.settles ended]
    decide
  have same : ["carol", "ada"].toFinset = ({"ada", "carol"} : Finset String) := by decide
  have again := reassigns.again ended staffed acceptAll [] ["carol", "ada"] rfl rfl
    (same.trans settled.symm) (by decide +kernel)
  exact ⟨rfl, rfl, reassigns, settled, again.trans same⟩

end SlashBot

import Mathlib.Data.Finset.Basic
import SlashBot.Proofs.Admitted
import SlashBot.Proofs.Tracking

/-!
# Rosters

The labels and the assignees of an issue are sets of names. Calls add names to them and take
names away, and what a plan asks for comes down to a union and a difference. The order of
these two is not the same for both: labels are added before others are removed, and people
are removed before others are assigned.
-/

namespace SlashBot

/-! ## Names and calls -/

/-- The labels of an issue after a call. -/
def labelsAfter (labels : Finset String) (call : Call) : Finset String :=
  match call with
  | .addLabels _ names => labels ∪ names.toFinset
  | .removeLabel _ name => labels.erase name
  | _ => labels

/-- The assignees of an issue after a call. -/
def assigneesAfter (people : Finset String) (call : Call) : Finset String :=
  match call with
  | .addAssignees _ names => people ∪ names.toFinset
  | .removeAssignees _ names => people \ names.toFinset
  | _ => people

/-- Removing labels one by one removes all of them. -/
theorem foldl_removeLabel (number : Value) (labels : Finset String) (names : List String) :
    names.foldl (fun labels name => labelsAfter labels (.removeLabel number name)) labels =
      labels \ names.toFinset := by
  induction names generalizing labels with
  | nil => simp
  | cons name names ih =>
      rw [List.foldl_cons, ih, labelsAfter, List.toFinset_cons]
      ext other
      simp only [Finset.mem_sdiff, Finset.mem_erase, Finset.mem_insert, not_or]
      tauto

/-! ## What is removed -/

/-- The names to remove from those that are there: all of them if a star asks for it. -/
def Changes.removals (changes : Changes) (current : List String) : List String :=
  if "*" ∈ changes.remove then current else changes.remove

theorem Changes.removals_of_star {changes : Changes} {current : List String}
    (star : "*" ∈ changes.remove) : changes.removals current = current :=
  if_pos star

theorem Changes.removals_of_no_star {changes : Changes} {current : List String}
    (bare : "*" ∉ changes.remove) : changes.removals current = changes.remove :=
  if_neg bare

theorem textsOf_map_str (names : List String) :
    Invocation.textsOf (names.map .str) = .ok names := by
  induction names with
  | nil => rfl
  | cons name names ih =>
      rw [Invocation.textsOf] at ih ⊢
      rw [List.map_cons, List.mapM_cons, ih]
      rfl

theorem textsOf_resolveRemovals (changes : Changes) (current : List String) :
    Invocation.textsOf (resolveRemovals changes.remove (current.map .str)) =
      .ok (changes.removals current) := by
  rw [resolveRemovals, Changes.removals]
  by_cases star : "*" ∈ changes.remove
  · rw [if_pos (List.contains_iff_mem.mpr star), if_pos star]
    exact textsOf_map_str current
  · rw [if_neg (mt List.contains_iff_mem.mp star), if_neg star]
    exact textsOf_map_str changes.remove

theorem dropAt_eq_star_iff {name : List Char} :
    Change.dropAt name = ['*'] ↔ name = ['*'] ∨ name = ['@', '*'] := by
  rw [Change.dropAt.eq_def]
  split
  · rename_i rest
    simp
  · rename_i name other
    constructor
    · exact .inl
    · rintro (bare | signed)
      · exact bare
      · exact absurd signed (other ['*'])

theorem ofWord?_eq_star_iff {people : Bool} {word : List Char} :
    Change.ofWord? people word = some (.remove ['*']) ↔
      word = ['*'] ∨ word = ['-', '*'] ∨ people = true ∧ word = ['-', '@', '*'] := by
  rw [Change.ofWord?.eq_def]
  extract_lets bare
  have starred (name : List Char) :
      bare name = ['*'] ↔ name = ['*'] ∨ people = true ∧ name = ['@', '*'] := by
    cases people with
    | false => simp [bare]
    | true => simp [bare, dropAt_eq_star_iff]
  clear_value bare
  split
  · simp
  · rename_i rest
    have whole := starred rest
    split
    · rename_i empty
      rw [List.isEmpty_iff.mp empty] at whole
      simpa using whole
    · simpa using whole
  · rename_i word notStar notHyphen
    constructor
    · intro asked
      split at asked
      · cases asked
      · cases asked
    · rintro (rfl | rfl | ⟨-, rfl⟩)
      · exact absurd rfl notStar
      · exact absurd rfl (notHyphen _)
      · exact absurd rfl (notHyphen _)

/-- A star is to be removed if a word asks for it with or without a hyphen, or, where at signs
are dropped, with both. -/
theorem star_mem_remove_iff {people : Bool} {words : List (List Char)} :
    "*" ∈ (Changes.ofWords people words).remove ↔
      ['*'] ∈ words ∨ ['-', '*'] ∈ words ∨ people = true ∧ ['-', '@', '*'] ∈ words := by
  have named (change : Change) : change.removed? = some "*" ↔ change = .remove ['*'] := by
    cases change with
    | add name => simp [Change.removed?]
    | remove name =>
        rw [Change.removed?, Option.some_inj, Change.remove.injEq, ← String.toList_inj,
          String.toList_ofList]
        rfl
  simp only [Changes.ofWords, List.mem_filterMap, named, exists_eq_right, ofWord?_eq_star_iff]
  constructor
  · rintro ⟨word, member, rfl | rfl | ⟨assigning, rfl⟩⟩
    · exact .inl member
    · exact .inr (.inl member)
    · exact .inr (.inr ⟨assigning, member⟩)
  · rintro (member | member | ⟨assigning, member⟩)
    · exact ⟨_, member, .inl rfl⟩
    · exact ⟨_, member, .inr (.inl rfl)⟩
    · exact ⟨_, member, .inr (.inr ⟨assigning, rfl⟩)⟩

/-! ## What a plan leads to -/

namespace Invocation

variable {invocation : Invocation} {actions : ActionSet} {changes : Changes}
  {current : List String}

/-- The labels that are removed, each once. -/
def unlabelled (changes : Changes) (current : List String) : List String :=
  (changes.removals current).eraseDups

theorem planLabels_eq (labelled : invocation.target.labels = current.map .str)
    (made : Changes.ofSpecifiers actions.labels invocation.arguments false = .ok changes) :
    invocation.planLabels actions =
      planIf (!changes.add.isEmpty) (.addLabels invocation.target.number changes.add) .addLabels ++
        if !(unlabelled changes current).isEmpty then
          [⟨.removeEach invocation.target.number (unlabelled changes current),
            some .removeLabels⟩]
        else [] := by
  simp only [planLabels, planRemoveLabels, made, labelled, textsOf_resolveRemovals]
  rfl

theorem planPeople_eq (assigned : invocation.target.assignees = current.map .str)
    (made : Changes.ofSpecifiers actions.assign invocation.arguments true = .ok changes) :
    invocation.planPeople actions =
      planIf (!(changes.removals current).isEmpty)
          (.removeAssignees invocation.target.number (changes.removals current))
          .removeAssignees ++
        planIf (!changes.add.isEmpty) (.addAssignees invocation.target.number changes.add)
          .addAssignees := by
  simp only [planPeople, planUnassign, made, assigned, textsOf_resolveRemovals]

/-- The plan for the labels adds first and removes afterwards. -/
theorem changes_planLabels (labelled : invocation.target.labels = current.map .str)
    (made : Changes.ofSpecifiers actions.labels invocation.arguments false = .ok changes)
    (labels : Finset String) :
    Task.changes labelsAfter labels (invocation.planLabels actions) =
      (labels ∪ changes.add.toFinset) \ (changes.removals current).toFinset := by
  have each : (unlabelled changes current).toFinset = (changes.removals current).toFinset := by
    ext name
    simp [unlabelled]
  have added : Task.changes labelsAfter labels (planIf (!changes.add.isEmpty)
      (.addLabels invocation.target.number changes.add) .addLabels) =
      labels ∪ changes.add.toFinset := by
    rw [Task.changes_planIf]
    cases changes.add with
    | nil => simp
    | cons name names => rfl
  rw [planLabels_eq labelled made, Task.changes_append, added, ← each]
  cases unlabelled changes current with
  | nil => simp [Task.changes]
  | cons name names =>
      exact foldl_removeLabel invocation.target.number _ (name :: names)

/-- The plan for the assignees removes first and adds afterwards. -/
theorem changes_planPeople (assigned : invocation.target.assignees = current.map .str)
    (made : Changes.ofSpecifiers actions.assign invocation.arguments true = .ok changes)
    (people : Finset String) :
    Task.changes assigneesAfter people (invocation.planPeople actions) =
      (people \ (changes.removals current).toFinset) ∪ changes.add.toFinset := by
  rw [planPeople_eq assigned made, Task.changes_append, Task.changes_planIf, Task.changes_planIf]
  cases changes.removals current with
  | nil =>
      cases changes.add with
      | nil => simp
      | cons name names => simp [assigneesAfter]
  | cons other others =>
      cases changes.add with
      | nil => simp [assigneesAfter]
      | cons name names => simp [assigneesAfter]

/-- Of the parts of a plan, only the one for the labels changes them. -/
theorem changes_plan_labels (labels : Finset String) :
    Task.changes labelsAfter labels (invocation.plan actions) =
      Task.changes labelsAfter labels (invocation.planLabels actions) := by
  rw [plan]
  simp only [Task.changes_append]
  rw [Task.changes_eq (invocation.eachCall_planPins actions (fun _ _ => rfl) fun _ _ => rfl),
    Task.changes_eq (invocation.eachCall_planComment actions (fun _ _ _ => rfl)
      (fun _ _ _ => rfl) (fun _ _ _ => rfl) fun _ _ => rfl),
    Task.changes_eq (invocation.eachCall_planState actions fun _ _ _ => rfl),
    Task.changes_eq (invocation.eachCall_planLock actions (fun _ _ _ => rfl) fun _ _ => rfl),
    Task.changes_eq (invocation.eachCall_planPeople actions (fun _ _ _ => rfl) fun _ _ _ => rfl),
    Task.changes_eq (invocation.eachCall_planDispatch actions fun _ _ _ => rfl)]

end Invocation

end SlashBot

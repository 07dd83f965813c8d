import SlashBot.Proofs.Plan

/-!
# Admitted work

Whatever is configured and whatever a command says, the plan for a target is made of a few
kinds of work only: calls about this target, reactions to the newest comment, removals of at
least one label, and faults. A specifier never removes an empty name, so an empty name can
only be one that a label of the target has.
-/

namespace SlashBot

/-- A call is about the issue with a number, or about no issue in particular. Calls that
read, reactions and the removal of a label are not among them. -/
@[simp] def Call.Concerns (number : Value) : (call : Call) → Prop
  | .createComment own _ | .setState own _ | .lock own _ | .unlock own | .addLabels own _
  | .addAssignees own _ | .removeAssignees own _ => own = number
  | .pin _ | .unpin _ | .dispatch .. => True
  | _ => False

/-- The work that a plan for a target may hold. -/
inductive Target.Admits (target : Target) : (work : Work) → Prop
  | ask {call : Call} (concerns : call.Concerns target.number) : Admits target (.ask call)
  | react (name : String) : Admits target (.react name)
  | removeEach {names : List String} (some : names ≠ [])
      (named : "" ∈ names → .str "" ∈ target.labels) :
      Admits target (.removeEach target.number names)
  | halt (fault : Fault) : Admits target (.halt fault)

/-- All of some tasks are admitted. -/
def Target.AdmitsAll (target : Target) (tasks : List Task) : Prop :=
  ∀ task ∈ tasks, target.Admits task.work

/-! ## Names that specifiers remove -/

section Names

variable {people : Bool} {word name : List Char}

theorem ne_nil_of_removed (asked : Change.ofWord? people word = some (.remove name)) :
    name ≠ [] := by
  rw [Change.ofWord?.eq_def] at asked
  extract_lets bare at asked
  clear_value bare
  split at asked
  · cases asked
    nofun
  · split at asked
    · cases asked
    · rename_i filled
      simp only [Option.some.injEq, Change.remove.injEq] at asked
      rw [asked] at filled
      simpa using filled
  · split at asked
    · cases asked
    · simp at asked

theorem not_mem_remove (words : List (List Char)) :
    "" ∉ (Changes.ofWords people words).remove := by
  intro member
  rw [Changes.ofWords, List.mem_filterMap] at member
  obtain ⟨change, found, removed⟩ := member
  obtain ⟨word, -, asked⟩ := List.mem_filterMap.mp found
  cases change with
  | add name => cases removed
  | remove name =>
      apply ne_nil_of_removed asked
      exact String.ofList_eq_empty_iff.mp (Option.some.inj removed)

/-- A specifier never removes an empty name. -/
theorem not_mem_remove_ofSpecifiers {specifiers : List String} {context : Template.Context}
    {changes : Changes} (made : Changes.ofSpecifiers specifiers context people = .ok changes) :
    "" ∉ changes.remove := by
  rw [Changes.ofSpecifiers] at made
  cases given : specifierWords specifiers context with
  | error fault => simp [given, bind, Except.bind] at made
  | ok words =>
      simp only [given, bind, Except.bind, pure, Except.pure, Except.ok.injEq] at made
      rw [← made]
      exact not_mem_remove words

theorem exists_of_mem_mapM {α β : Type} {image : α → Except Fault β} {items : List α}
    {results : List β} {result : β} (mapped : items.mapM image = .ok results)
    (member : result ∈ results) : ∃ item ∈ items, image item = .ok result := by
  induction items generalizing results with
  | nil =>
      cases mapped
      cases member
  | cons item items ih =>
      rw [List.mapM_cons] at mapped
      cases first : image item with
      | error fault => simp [first, bind, Except.bind] at mapped
      | ok own =>
          cases rest : items.mapM image with
          | error fault => simp [first, rest, bind, Except.bind] at mapped
          | ok others =>
              simp only [first, rest, bind, Except.bind, pure, Except.pure,
                Except.ok.injEq] at mapped
              subst mapped
              rcases List.mem_cons.mp member with rfl | later
              · exact ⟨item, by simp, first⟩
              · rcases ih rest later with ⟨other, inRest, same⟩
                exact ⟨other, by simp [inRest], same⟩

/-- An empty name among the removals is one of those that are there. -/
theorem mem_of_textsOf {remove names : List String} {current : List Value}
    (filled : "" ∉ remove)
    (texts : Invocation.textsOf (resolveRemovals remove current) = .ok names)
    (member : "" ∈ names) : .str "" ∈ current := by
  obtain ⟨value, inValues, same⟩ := exists_of_mem_mapM texts member
  have empty : value = .str "" := by
    split at same
    · cases same
      rfl
    · cases same
  subst empty
  rw [resolveRemovals] at inValues
  split at inValues
  · exact inValues
  · obtain ⟨text, removed, same⟩ := List.mem_map.mp inValues
    cases Value.str.inj same
    exact absurd removed filled

end Names

/-! ## Plans -/

section Plans

variable {target : Target} {tasks more : List Task}

theorem admitsAll_nil : target.AdmitsAll [] := by
  intro task member
  cases member

theorem Target.AdmitsAll.append (first : target.AdmitsAll tasks)
    (second : target.AdmitsAll more) : target.AdmitsAll (tasks ++ more) := by
  intro task member
  rcases List.mem_append.mp member with inFirst | inSecond
  · exact first task inFirst
  · exact second task inSecond

theorem admitsAll_singleton {work : Work} (effect : Option Effect)
    (admitted : target.Admits work) : target.AdmitsAll [⟨work, effect⟩] := by
  intro task member
  rw [List.mem_singleton.mp member]
  exact admitted

end Plans

namespace Invocation

theorem admitsAll_planIf {target : Target} (wanted : Bool) (call : Call) (effect : Effect)
    (concerns : call.Concerns target.number) :
    target.AdmitsAll (planIf wanted call effect) := by
  cases wanted with
  | false => exact admitsAll_nil
  | true => exact admitsAll_singleton _ (.ask concerns)

variable (invocation : Invocation) (actions : ActionSet)

theorem admitsAll_planRemarks (text : String) (reactions : List String) :
    invocation.target.AdmitsAll (invocation.planRemarks text reactions) := by
  apply (admitsAll_singleton _ (.ask (by simp))).append
  intro task member
  rcases List.mem_flatMap.mp member with ⟨name, -, planned⟩
  rw [planReaction] at planned
  split at planned
  · rw [List.mem_singleton.mp planned]
    exact .react name
  · cases planned

theorem admitsAll_planComment :
    invocation.target.AdmitsAll (invocation.planComment actions) := by
  rw [planComment]
  split
  · exact admitsAll_nil
  · exact admitsAll_singleton _ (.halt _)
  · rename_i text _
    have remarks := invocation.admitsAll_planRemarks text actions.reactions
    split
    · exact ((admitsAll_singleton _ (.ask (by simp))).append remarks).append
        (admitsAll_singleton _ (.ask (by simp)))
    · exact remarks

theorem admitsAll_planLabels : invocation.target.AdmitsAll (invocation.planLabels actions) := by
  rw [planLabels]
  cases made : Changes.ofSpecifiers actions.labels invocation.arguments false with
  | error fault => exact admitsAll_singleton _ (.halt fault)
  | ok changes =>
      apply (admitsAll_planIf _ _ _ (by simp)).append
      rw [planRemoveLabels]
      cases texts : textsOf (resolveRemovals changes.remove invocation.target.labels) with
      | error fault => exact admitsAll_singleton _ (.halt fault)
      | ok names =>
          dsimp only
          split
          · rename_i filled
            apply admitsAll_singleton
            constructor
            · simpa using filled
            · intro member
              exact mem_of_textsOf (not_mem_remove_ofSpecifiers made) texts
                (List.mem_eraseDups.mp member)
          · exact admitsAll_nil

theorem admitsAll_planPeople : invocation.target.AdmitsAll (invocation.planPeople actions) := by
  rw [planPeople]
  cases Changes.ofSpecifiers actions.assign invocation.arguments true with
  | error fault => exact admitsAll_singleton _ (.halt fault)
  | ok changes =>
      refine Target.AdmitsAll.append ?_ (admitsAll_planIf _ _ _ (by simp))
      rw [planUnassign]
      cases textsOf (resolveRemovals changes.remove invocation.target.assignees) with
      | error fault => exact admitsAll_singleton _ (.halt fault)
      | ok names => exact admitsAll_planIf _ _ _ (by simp)

/-- A plan holds nothing but admitted work. -/
theorem admitsAll_plan : invocation.target.AdmitsAll (invocation.plan actions) :=
  ((admitsAll_planIf _ _ _ (by simp)).append (admitsAll_planIf _ _ _ (by simp))).append <|
    (invocation.admitsAll_planComment actions).append <|
    ((admitsAll_planIf _ _ _ (by simp)).append (admitsAll_planIf _ _ _ (by simp))).append <|
    ((admitsAll_planIf _ _ _ (by simp)).append (admitsAll_planIf _ _ _ (by simp))).append <|
    (invocation.admitsAll_planLabels actions).append <|
    (invocation.admitsAll_planPeople actions).append <|
    admitsAll_planIf _ _ _ (by simp)

end Invocation

end SlashBot

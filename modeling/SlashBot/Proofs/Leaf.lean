import SlashBot.Proofs.Normalizing
import SlashBot.Proofs.OneLine

/-!
# Texts in values

A configuration and a record of the service hold texts at any depth. If none of them breaks a line,
then this is so of everything that is taken from them: the actions of a command, their reactions,
and the number, the labels and the assignees of a target.
-/

namespace SlashBot

open Text

/-! ## Plain values -/

namespace Value

mutual

/-- The texts in a value, at any depth. Keys count too. -/
def leaves : (value : Value) → List String
  | .str text => [text]
  | .list items | .set items => leavesOfItems items
  | .map entries => leavesOfEntries entries
  | .pair first second => first.leaves ++ second.leaves
  | _ => []

/-- The texts in values. -/
def leavesOfItems : (items : List Value) → List String
  | [] => []
  | item :: rest => item.leaves ++ leavesOfItems rest

/-- The texts in the keys and the values of entries. -/
def leavesOfEntries : (entries : List (Value × Value)) → List String
  | [] => []
  | (key, value) :: rest => key.leaves ++ value.leaves ++ leavesOfEntries rest

end

/-- No text in the value breaks a line. -/
def IsPlain (value : Value) : Prop :=
  ∀ text ∈ value.leaves, OneLine text

instance (value : Value) : Decidable value.IsPlain :=
  inferInstanceAs (Decidable (∀ text ∈ value.leaves, OneLine text))

variable {value alternative : Value} {items : List Value} {entries : List (Value × Value)}
  {name : String}

theorem IsPlain.oneLine_display (plain : value.IsPlain) : OneLine value.display := by
  apply Value.oneLine_display
  rintro text rfl
  exact plain text (List.mem_singleton_self text)

theorem isPlain_null : null.IsPlain := by
  decide

theorem isPlain_emptyMap : emptyMap.IsPlain := by
  decide

theorem isPlain_list_cons {item : Value} :
    (list (item :: items)).IsPlain ↔ item.IsPlain ∧ (list items).IsPlain :=
  List.forall_mem_append

theorem isPlain_map_cons {key : Value} :
    (map ((key, value) :: entries)).IsPlain ↔
      (key.IsPlain ∧ value.IsPlain) ∧ (map entries).IsPlain :=
  List.forall_mem_append.trans (and_congr_left' List.forall_mem_append)

theorem isPlain_pair {first second : Value} :
    (pair first second).IsPlain ↔ first.IsPlain ∧ second.IsPlain :=
  List.forall_mem_append

theorem IsPlain.of_mem {item : Value} (plain : (list items).IsPlain) (member : item ∈ items) :
    item.IsPlain := by
  induction items with
  | nil => cases member
  | cons first items ih =>
      rw [isPlain_list_cons] at plain
      rcases List.mem_cons.mp member with rfl | later
      · exact plain.1
      · exact ih plain.2 later

theorem IsPlain.of_field? (plain : (map entries).IsPlain)
    (found : field? entries name = some value) :
    value.IsPlain := by
  fun_induction field? entries name with
  | case1 => cases found
  | case2 text held rest same =>
      cases found
      exact (isPlain_map_cons.mp plain).1.2
  | case3 text held rest other ih => exact ih (isPlain_map_cons.mp plain).2 found
  | case4 entry rest other ih => exact ih (isPlain_map_cons.mp plain).2 found

theorem IsPlain.field (plain : (map entries).IsPlain) (name : String) :
    (field entries name).IsPlain := by
  rw [Value.field]
  cases found : field? entries name with
  | none => exact isPlain_null
  | some value => exact plain.of_field? found

theorem IsPlain.orElse (plain : value.IsPlain) (other : alternative.IsPlain) :
    (value.orElse alternative).IsPlain := by
  rw [Value.orElse]
  split
  · exact plain
  · exact other

theorem IsPlain.of_member {record : Value} (plain : record.IsPlain)
    (found : record.member name = .ok value) : value.IsPlain := by
  cases record with
  | map entries =>
      simp only [member] at found
      split at found
      · rename_i held same
        cases found
        exact plain.of_field? same
      · cases found
  | _ => cases found

end Value

/-! ## What is read from values -/

variable {raw : Value} {entries : List (Value × Value)}

/-- The actions of a command are a part of the configuration, or empty. -/
theorem Config.isPlain_actionsFor {config : Value} {context command : String}
    (plain : config.IsPlain) (chosen : actionsFor config context command = .ok raw) :
    raw.IsPlain := by
  cases config with
  | map entries =>
      have flat : (flatEntry entries command).IsPlain := by
        rw [flatEntry]
        split
        · exact Value.isPlain_emptyMap
        · exact (plain.field command).orElse Value.isPlain_emptyMap
      have own : (sectionEntry entries context command).IsPlain := by
        have inSection := plain.field context
        rw [sectionEntry]
        split
        · rename_i commands found
          rw [found] at inSection
          exact inSection.field command
        · exact Value.isPlain_null
      cases chosen
      split
      · exact flat
      · exact own
  | _ => cases chosen

namespace ActionSet

variable {actions : ActionSet}

theorem isPlain_of_mem_itemsOf {value item : Value} (plain : value.IsPlain)
    (member : item ∈ itemsOf value) : item.IsPlain := by
  cases value with
  | null => cases member
  | list items => exact plain.of_mem member
  | pair first second =>
      rw [Value.isPlain_pair] at plain
      rcases List.mem_cons.mp member with rfl | last
      · exact plain.1
      · rw [List.mem_singleton.mp last]
        exact plain.2
  | _ =>
      rw [List.mem_singleton.mp member]
      exact plain

/-- The reactions of an action set are displayed as they are configured. -/
theorem oneLine_reactions (plain : raw.IsPlain) (made : ofValue raw = .ok actions) :
    ∀ name ∈ actions.reactions, OneLine name := by
  by_cases map : ∃ entries, raw = .map entries
  · obtain ⟨entries, rfl⟩ := map
    rw [ofValue_map, ofEntries_eq_ok_iff] at made
    rw [made.2.2]
    intro name member
    rcases List.mem_map.mp member with ⟨item, inItems, rfl⟩
    exact (isPlain_of_mem_itemsOf (plain.field "reactions") inItems).oneLine_display
  · rw [not_exists] at map
    rw [ofValue_of_not_map map] at made
    split at made
    · cases made
    · cases made
      exact List.forall_mem_nil _

end ActionSet

namespace Target

/-- No text in the number, the labels and the assignees of the target breaks a line. -/
structure IsPlain (target : Target) : Prop where
  number : target.number.IsPlain
  labels : ∀ label ∈ target.labels, label.IsPlain
  assignees : ∀ person ∈ target.assignees, person.IsPlain

theorem isPlain_of_mem_mapM {name : String} {records found : List Value}
    (plain : (Value.list records).IsPlain)
    (read : records.mapM (fun record => record.member name) = .ok found) :
    ∀ item ∈ found, item.IsPlain := by
  induction records generalizing found with
  | nil =>
      cases read
      exact List.forall_mem_nil _
  | cons record records ih =>
      rw [Value.isPlain_list_cons] at plain
      rw [List.mapM_cons] at read
      rcases exists_of_bind_ok read with ⟨first, named, reading⟩
      rcases exists_of_bind_ok reading with ⟨others, later, whole⟩
      cases whole
      rw [List.forall_mem_cons]
      exact ⟨plain.1.of_member named, ih plain.2 later⟩

theorem isPlain_of_mem_members {name : String} {value : Value} {found : List Value}
    (plain : value.IsPlain) (read : members name value = .ok found) :
    ∀ item ∈ found, item.IsPlain := by
  simp only [members] at read
  split at read
  · cases read
    exact List.forall_mem_nil _
  · cases value with
    | list records => exact isPlain_of_mem_mapM plain read
    | _ => cases read

theorem isPlain_ofRecord {record : Value} {target : Target} (plain : record.IsPlain)
    (read : ofRecord record = .ok target) : target.IsPlain := by
  rcases exists_of_bind_ok read with ⟨number, numbered, reading⟩
  cases record with
  | map entries =>
      rcases exists_of_bind_ok reading with ⟨labels, labelled, peopling⟩
      rcases exists_of_bind_ok peopling with ⟨assignees, assigned, naming⟩
      rcases exists_of_bind_ok naming with ⟨author, -, whole⟩
      cases whole
      exact {
        number := plain.of_member numbered
        labels := isPlain_of_mem_members (plain.field "labels") labelled
        assignees := isPlain_of_mem_members (plain.field "assignees") assigned }
  | _ => cases reading

end Target

end SlashBot

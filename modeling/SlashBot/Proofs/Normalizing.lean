import SlashBot.Proofs.Isolation
import SlashBot.Proofs.Spelling

/-!
# Normalized action sets

Configurations are written in many shapes, and each of them is an action set or a mistake. Here
is said which shapes are mistakes, whatever value is configured, and that the other ones do not
depend on how they are written: a single value is as good as a list with it, labels can be given
under two names, and what else a map holds has no influence. The only other thing that can go
wrong is an integer that is too long to be written down.
-/

namespace SlashBot

namespace ActionSet

variable {value other raw : Value} {entries others : List (Value × Value)} {field : String}
  {found : List String} {actions : ActionSet}

/-! ## Fields with texts -/

/-- A shape that no field can have: a map, or a list with a map or a list in it. A pair is as good
as a list. -/
def IsMisfit : (value : Value) → Prop
  | .map _ => True
  | .list items => ∃ item ∈ items, isNested item = true
  | .pair first second => isNested first = true ∨ isNested second = true
  | _ => False

theorem isMisfit_iff : IsMisfit value ↔ ∃ item ∈ itemsOf value, isNested item = true := by
  cases value with
  | list items => rfl
  | pair first second => simp [IsMisfit, itemsOf]
  | _ => simp [IsMisfit, itemsOf, isNested]

theorem allWritable_eq_all (items : List Value) :
    Value.allWritable items = items.all Value.isWritable := by
  induction items with
  | nil => rw [Value.allWritable, List.all_nil]
  | cons item items ih => rw [Value.allWritable, List.all_cons, ih]

/-- A value can be written down if its items can. -/
theorem isWritable_eq_all (value : Value) :
    value.isWritable = (itemsOf value).all Value.isWritable := by
  cases value with
  | null => rw [Value.isWritable, itemsOf, List.all_nil]
  | list items => rw [Value.isWritable, itemsOf, allWritable_eq_all]
  | pair first second => simp [Value.isWritable, itemsOf]
  | _ => simp [itemsOf]

theorem mapM_shown (items : List Value) :
    items.mapM Value.shown =
      if items.all Value.isWritable then .ok (items.map Value.display) else .error .badValue := by
  induction items with
  | nil => rfl
  | cons item items ih =>
      rw [List.mapM_cons, ih, Value.shown, List.all_cons]
      cases item.isWritable with
      | false => rfl
      | true => cases items.all Value.isWritable <;> rfl

/-- The items of a field that fits are taken over in their order, each as often as it is there. -/
theorem texts_of_fit (field : String) (fit : ¬ IsMisfit value) :
    texts field value =
      if value.isWritable then .ok ((itemsOf value).map Value.display) else .error .badValue := by
  have plain : (itemsOf value).find? isNested = none := by
    rw [List.find?_eq_none]
    intro item member nested
    exact fit (isMisfit_iff.2 ⟨item, member, nested⟩)
  simp only [texts, plain]
  rw [mapM_shown, isWritable_eq_all]

/-- The fault of a field that does not fit shows one of its items. -/
theorem exists_texts_of_misfit (field : String) (misfit : IsMisfit value) :
    ∃ item ∈ itemsOf value,
      texts field value = item.shown >>= fun _ => .error (.invalidField field item) := by
  obtain ⟨item, member, nested⟩ := isMisfit_iff.1 misfit
  cases first : (itemsOf value).find? isNested with
  | none => exact absurd nested (List.find?_eq_none.mp first item member)
  | some item =>
      refine ⟨item, List.mem_of_find?_eq_some first, ?_⟩
      simp only [texts, first]

/-- A field can be taken over: it fits, and can be written down. -/
def IsTaken (value : Value) : Prop := ¬ IsMisfit value ∧ value.isWritable = true

theorem texts_eq_ok_iff :
    texts field value = .ok found ↔ IsTaken value ∧ found = (itemsOf value).map Value.display := by
  by_cases misfit : IsMisfit value
  · obtain ⟨item, -, made⟩ := exists_texts_of_misfit field misfit
    rw [made]
    cases item.shown <;> simp [IsTaken, misfit, bind, Except.bind]
  · rw [texts_of_fit field misfit]
    cases writable : value.isWritable <;> simp [IsTaken, misfit, writable, eq_comm]

/-- Whether a field can be taken over is said item by item. -/
theorem isTaken_iff :
    IsTaken value ↔ ∀ item ∈ itemsOf value, isNested item = false ∧ item.isWritable = true := by
  rw [IsTaken, isMisfit_iff, isWritable_eq_all, List.all_eq_true]
  simp only [not_exists, not_and, Bool.not_eq_true, ← forall_and]

/-- The only thing that is asked of a value is its items. -/
theorem texts_congr (same : itemsOf value = itemsOf other) :
    texts field value = texts field other := by
  rw [texts, texts, same]

/-! ## What is blamed -/

/-- A fault that blames a mistake in the configuration, or comes from an integer that is too long
to be written down. -/
def Blames (mistaken legible : Prop) (fault : Fault) : Prop :=
  fault.isConfigFault = true ∧ mistaken ∨ fault = .badValue ∧ ¬ legible

theorem blames_texts (field : String) (value : Value) :
    FaultsAre (Blames (IsMisfit value) (value.isWritable = true)) (texts field value) := by
  by_cases misfit : IsMisfit value
  · obtain ⟨item, member, made⟩ := exists_texts_of_misfit field misfit
    rw [made, Value.shown]
    cases writable : item.isWritable with
    | true => exact faultsAre_error (.inl ⟨rfl, misfit⟩)
    | false =>
        refine faultsAre_error (.inr ⟨rfl, ?_⟩)
        rw [isWritable_eq_all, List.all_eq_true]
        intro all
        rw [all item member] at writable
        cases writable
  · rw [texts_of_fit field misfit]
    cases value.isWritable with
    | true => exact faultsAre_ok _
    | false => exact faultsAre_error (.inr ⟨rfl, Bool.false_ne_true⟩)

/-- A lock reason is a mistake if it is given and names no reason. -/
theorem blames_lockReason (value : Value) :
    FaultsAre (Blames (value.isNull = false ∧ ¬ LockReason.IsNamedBy value)
      (value.isWritable = true)) (LockReason.ofValue value) := by
  cases present : value.isNull with
  | true =>
      cases value with
      | null => exact faultsAre_ok none
      | _ => cases present
  | false =>
      cases writable : value.isWritable with
      | false =>
          rw [LockReason.ofValue_of_not_writable present writable]
          exact faultsAre_error (.inr ⟨rfl, Bool.false_ne_true⟩)
      | true =>
          by_cases named : LockReason.IsNamedBy value
          · obtain ⟨reason, made⟩ :=
              LockReason.exists_ofValue_of_named present writable named
            rw [made]
            exact faultsAre_ok _
          · rw [LockReason.ofValue_of_not_named present writable named]
            exact faultsAre_error (.inl ⟨rfl, rfl, named⟩)

/-! ## Maps -/

/-- The fields that hold texts. -/
def textFields : List String := ["comment", "reactions", "label", "labels", "assign"]

/-- The fields that hold a truth value. -/
def flagFields : List String := ["open", "close", "lock", "unlock", "pin", "unpin", "dispatch"]

theorem forall_textFields {property : String → Prop} : (∀ field ∈ textFields, property field) ↔
    property "comment" ∧ property "reactions" ∧ property "label" ∧ property "labels" ∧
      property "assign" := by
  simp [textFields]

/-- What is no action set: something else than a map, unless it counts as absent, and a map with a
field that does not fit or with a lock reason that is none. -/
def IsMistake : (raw : Value) → Prop
  | .map entries => (∃ field ∈ textFields, IsMisfit (Value.field entries field)) ∨
      (Value.field entries "lockReason").isNull = false ∧
        ¬ LockReason.IsNamedBy (Value.field entries "lockReason")
  | raw => raw.truthy = true

/-- No integer in the texts and in the lock reason of a map is too long to be written down. -/
def IsLegible : (raw : Value) → Prop
  | .map entries => ∀ field ∈ "lockReason" :: textFields,
      (Value.field entries field).isWritable = true
  | _ => True

/-- The items of a field as texts. -/
def displays (entries : List (Value × Value)) (field : String) : List String :=
  (itemsOf (Value.field entries field)).map Value.display

/-- The action set that a map without mistakes stands for. -/
def assembled (entries : List (Value × Value)) (lockReason : Option LockReason) : ActionSet where
  comments := displays entries "comment"
  reactions := displays entries "reactions"
  reopen := (Value.field entries "open").truthy
  close := (Value.field entries "close").truthy
  lock := (Value.field entries "lock").truthy
  unlock := (Value.field entries "unlock").truthy
  lockReason := lockReason
  labels := displays entries "label" ++ displays entries "labels"
  assign := displays entries "assign"
  pin := (Value.field entries "pin").truthy
  unpin := (Value.field entries "unpin").truthy
  dispatch := (Value.field entries "dispatch").truthy

theorem textsIn_eq_ok_iff : textsIn entries field = .ok found ↔
    IsTaken (Value.field entries field) ∧ found = displays entries field :=
  texts_eq_ok_iff

theorem ofValue_map (entries : List (Value × Value)) :
    ofValue (.map entries) = ofEntries entries := by
  cases entries with
  | nil => rfl
  | cons entry entries => rfl

/-- A map is taken over if all of its texts and its lock reason are. -/
theorem ofEntries_eq_ok_iff : ofEntries entries = .ok actions ↔
    (∀ field ∈ textFields, IsTaken (Value.field entries field)) ∧
      LockReason.ofValue (Value.field entries "lockReason") = .ok actions.lockReason ∧
        actions = assembled entries actions.lockReason := by
  rw [forall_textFields]
  constructor
  · intro made
    obtain ⟨comments, commented, made⟩ := exists_of_bind_ok made
    obtain ⟨reactions, reacted, made⟩ := exists_of_bind_ok made
    obtain ⟨reason?, named, made⟩ := exists_of_bind_ok made
    obtain ⟨label, labelled, made⟩ := exists_of_bind_ok made
    obtain ⟨labels, relabelled, made⟩ := exists_of_bind_ok made
    obtain ⟨assign, assigned, made⟩ := exists_of_bind_ok made
    obtain ⟨comment, rfl⟩ := textsIn_eq_ok_iff.mp commented
    obtain ⟨react, rfl⟩ := textsIn_eq_ok_iff.mp reacted
    obtain ⟨first, rfl⟩ := textsIn_eq_ok_iff.mp labelled
    obtain ⟨second, rfl⟩ := textsIn_eq_ok_iff.mp relabelled
    obtain ⟨people, rfl⟩ := textsIn_eq_ok_iff.mp assigned
    cases made
    exact ⟨⟨comment, react, first, second, people⟩, named, rfl⟩
  · rintro ⟨⟨comment, react, first, second, people⟩, named, made⟩
    have shown : ∀ {field}, IsTaken (Value.field entries field) →
        textsIn entries field = .ok (displays entries field) :=
      fun taken => textsIn_eq_ok_iff.mpr ⟨taken, rfl⟩
    rw [made]
    simp only [ofEntries, shown comment, shown react, named, shown first, shown second,
      shown people, bind, Except.bind]
    rfl

/-- Nothing but the fields is asked of a map. -/
theorem ofEntries_congr
    (texts : ∀ field ∈ textFields, textsIn entries field = textsIn others field)
    (kept : ∀ field ∈ "lockReason" :: flagFields, Value.field entries field =
      Value.field others field) : ofEntries entries = ofEntries others := by
  rw [forall_textFields] at texts
  simp only [flagFields, List.forall_mem_cons] at kept
  simp only [ofEntries, texts, kept]

theorem blames_ofEntries (entries : List (Value × Value)) :
    FaultsAre (Blames (IsMistake (.map entries)) (IsLegible (.map entries)))
      (ofEntries entries) := by
  have blamed : ∀ field ∈ textFields, FaultsAre
      (Blames (IsMistake (.map entries)) (IsLegible (.map entries))) (textsIn entries field) := by
    intro field known fault failed
    rcases blames_texts field _ fault failed with ⟨mistake, misfit⟩ | ⟨bad, unwritable⟩
    · exact .inl ⟨mistake, .inl ⟨field, known, misfit⟩⟩
    · exact .inr ⟨bad, fun legible => unwritable (legible field (List.mem_cons_of_mem _ known))⟩
  have reasoned : FaultsAre (Blames (IsMistake (.map entries)) (IsLegible (.map entries)))
      (LockReason.ofValue (Value.field entries "lockReason")) := by
    intro fault failed
    rcases blames_lockReason _ fault failed with ⟨mistake, wrong⟩ | ⟨bad, unwritable⟩
    · exact .inl ⟨mistake, .inr wrong⟩
    · exact .inr ⟨bad, fun legible => unwritable (legible _ List.mem_cons_self)⟩
  rw [forall_textFields] at blamed
  obtain ⟨comment, react, first, second, people⟩ := blamed
  exact comment.bind fun _ => react.bind fun _ => reasoned.bind fun _ => first.bind fun _ =>
    second.bind fun _ => people.bind fun _ => faultsAre_ok _

/-! ## All values -/

/-- Something else than a map is taken over if it counts as absent. -/
theorem ofValue_of_not_map (elsewise : ∀ entries, raw ≠ .map entries) :
    ofValue raw = if raw.truthy then .error (.actionsNotMap raw.kindName) else .ok {} := by
  cases raw with
  | map entries => exact absurd rfl (elsewise entries)
  | _ => simp only [ofValue, Bool.not_eq_eq_eq_not, Bool.not_true, ite_not, ← Bool.not_eq_true]

theorem isMistake_of_not_map (elsewise : ∀ entries, raw ≠ .map entries) :
    IsMistake raw ↔ raw.truthy = true := by
  cases raw with
  | map entries => exact absurd rfl (elsewise entries)
  | _ => rfl

theorem isLegible_of_not_map (elsewise : ∀ entries, raw ≠ .map entries) : IsLegible raw := by
  cases raw with
  | map entries => exact absurd rfl (elsewise entries)
  | _ => trivial

/-- A fault is a mistake in the configuration, or an integer is too long to be written down. -/
theorem blames_ofValue (raw : Value) :
    FaultsAre (Blames (IsMistake raw) (IsLegible raw)) (ofValue raw) := by
  by_cases map : ∃ entries, raw = .map entries
  · obtain ⟨entries, rfl⟩ := map
    rw [ofValue_map]
    exact blames_ofEntries entries
  · rw [not_exists] at map
    rw [ofValue_of_not_map map]
    split
    · rename_i present
      exact faultsAre_error (.inl ⟨rfl, (isMistake_of_not_map map).mpr present⟩)
    · exact faultsAre_ok _

theorem not_isMistake_map_iff : ¬ IsMistake (.map entries) ↔
    (∀ field ∈ textFields, ¬ IsMisfit (Value.field entries field)) ∧
      ((Value.field entries "lockReason").isNull = true ∨
        LockReason.IsNamedBy (Value.field entries "lockReason")) := by
  rw [IsMistake, not_or, Classical.or_iff_not_imp_left, Bool.not_eq_true]
  simp only [not_exists, not_and, Classical.not_not]

/-- A map is an action set if it is no mistake and can be written down. -/
theorem exists_ofEntries_iff : (∃ actions, ofEntries entries = .ok actions) ↔
    ¬ IsMistake (.map entries) ∧ IsLegible (.map entries) := by
  have taken : (∃ actions, ofEntries entries = .ok actions) ↔
      (∀ field ∈ textFields, IsTaken (Value.field entries field)) ∧
        ∃ reason?, LockReason.ofValue (Value.field entries "lockReason") = .ok reason? := by
    simp only [ofEntries_eq_ok_iff]
    constructor
    · rintro ⟨actions, fields, named, -⟩
      exact ⟨fields, _, named⟩
    · rintro ⟨fields, reason?, named⟩
      exact ⟨assembled entries reason?, fields, named, rfl⟩
  rw [taken, LockReason.exists_ofValue_iff, not_isMistake_map_iff]
  simp only [IsLegible, IsTaken, List.forall_mem_cons, forall_and]
  constructor
  · rintro ⟨⟨fits, written⟩, named, legible⟩
    exact ⟨⟨fits, named⟩, legible, written⟩
  · rintro ⟨⟨fits, named⟩, legible, written⟩
    exact ⟨⟨fits, written⟩, named, legible⟩

theorem exists_ofValue_iff :
    (∃ actions, ofValue raw = .ok actions) ↔ ¬ IsMistake raw ∧ IsLegible raw := by
  by_cases map : ∃ entries, raw = .map entries
  · obtain ⟨entries, rfl⟩ := map
    rw [ofValue_map]
    exact exists_ofEntries_iff
  · rw [not_exists] at map
    rw [ofValue_of_not_map map, isMistake_of_not_map map]
    cases raw.truthy <;> simp [isLegible_of_not_map map]

/-- What can be written down is blamed if it is a mistake. -/
theorem exists_configFault_iff (legible : IsLegible raw) :
    (∃ fault, ofValue raw = .error fault ∧ fault.isConfigFault = true) ↔ IsMistake raw := by
  constructor
  · rintro ⟨fault, failed, blamed⟩
    rcases blames_ofValue raw fault failed with ⟨-, mistake⟩ | ⟨-, illegible⟩
    · exact mistake
    · exact absurd legible illegible
  · intro mistake
    cases made : ofValue raw with
    | ok actions => exact absurd mistake (exists_ofValue_iff.1 ⟨actions, made⟩).1
    | error fault =>
        rcases blames_ofValue raw fault made with ⟨blamed, -⟩ | ⟨-, illegible⟩
        · exact ⟨fault, rfl, blamed⟩
        · exact absurd legible illegible

/-! ## Ways of writing the same -/

/-- A value that is not a list of values. -/
def IsSingle : (value : Value) → Prop
  | .null | .list _ | .pair .. => False
  | _ => True

/-- A single value is the only item of the list with it. -/
theorem itemsOf_single (single : IsSingle value) : itemsOf value = itemsOf (.list [value]) := by
  cases value with
  | null | list | pair => exact single.elim
  | _ => rfl

/-- A map in which a single value of one field is written as a list. -/
structure Lists (field : String) (entries others : List (Value × Value)) : Prop where
  single : IsSingle (Value.field entries field)
  listed : Value.field others field = .list [Value.field entries field]
  elsewhere : Config.AgreeExcept field entries others

theorem Lists.ofEntries_eq (known : field ∈ textFields) (lists : Lists field entries others) :
    ofEntries entries = ofEntries others := by
  apply ofEntries_congr
  · intro name _
    by_cases same : name = field
    · subst same
      rw [textsIn, textsIn, lists.listed]
      exact texts_congr (itemsOf_single lists.single)
    · rw [textsIn, textsIn, lists.elsewhere name same]
  · have apart : ∀ name ∈ textFields, name ∉ "lockReason" :: flagFields := by decide
    intro name kept
    apply lists.elsewhere
    rintro rfl
    exact apart name known kept

/-- A map in which the labels that are given under two names are written under one. -/
structure Merges (entries others : List (Value × Value)) : Prop where
  moved : Value.field others "label" = .null
  merged : Value.field others "labels" =
    .list (itemsOf (Value.field entries "label") ++ itemsOf (Value.field entries "labels"))
  elsewhere : ∀ name, name ≠ "label" → name ≠ "labels" →
    Value.field entries name = Value.field others name

theorem Merges.isTaken_iff (merges : Merges entries others) :
    (∀ field ∈ textFields, IsTaken (Value.field entries field)) ↔
      ∀ field ∈ textFields, IsTaken (Value.field others field) := by
  have nothing : IsTaken .null := ⟨id, rfl⟩
  have both : IsTaken (Value.field others "labels") ↔
      IsTaken (Value.field entries "label") ∧ IsTaken (Value.field entries "labels") := by
    simp only [ActionSet.isTaken_iff, merges.merged, itemsOf, List.forall_mem_append]
  simp only [forall_textFields, both, merges.moved, nothing, true_and,
    merges.elsewhere "comment" (by decide) (by decide),
    merges.elsewhere "reactions" (by decide) (by decide),
    merges.elsewhere "assign" (by decide) (by decide), and_assoc]

theorem Merges.assembled_eq (merges : Merges entries others) (reason? : Option LockReason) :
    assembled entries reason? = assembled others reason? := by
  have both : displays entries "label" ++ displays entries "labels" =
      displays others "label" ++ displays others "labels" := by
    simp only [displays, merges.moved, merges.merged, itemsOf, List.map_append, List.map_nil,
      List.nil_append]
  have elsewhere : ∀ name ∈ ["comment", "reactions", "assign"] ++ flagFields,
      Value.field entries name = Value.field others name := by
    intro name known
    apply merges.elsewhere
    · rintro rfl
      exact absurd known (by decide)
    · rintro rfl
      exact absurd known (by decide)
  simp only [flagFields, List.cons_append, List.nil_append, List.forall_mem_cons] at elsewhere
  rw [assembled, assembled, both]
  simp only [displays, elsewhere]

theorem Merges.ofEntries_eq_ok_iff (merges : Merges entries others) :
    ofEntries entries = .ok actions ↔ ofEntries others = .ok actions := by
  rw [ActionSet.ofEntries_eq_ok_iff, ActionSet.ofEntries_eq_ok_iff, merges.isTaken_iff,
    merges.assembled_eq, merges.elsewhere "lockReason" (by decide) (by decide)]

/-! ## Normalization -/

/-- What normalization promises about a value, whatever is configured. -/
structure Normalizes (raw : Value) : Prop where
  /-- The value is an action set or a mistake, unless an integer in it is too long. -/
  ends : FaultsAre (Blames (IsMistake raw) (IsLegible raw)) (ofValue raw)
  /-- The mistakes are just the misshapen values. -/
  mistaken : IsLegible raw →
    ((∃ fault, ofValue raw = .error fault ∧ fault.isConfigFault = true) ↔ IsMistake raw)
  /-- Every other value is an action set. -/
  succeeds : (∃ actions, ofValue raw = .ok actions) ↔ ¬ IsMistake raw ∧ IsLegible raw
  /-- A value that counts as absent configures nothing. -/
  absent : raw.truthy = false → ofValue raw = .ok {}
  /-- The items of a field keep their order and their number. -/
  assembles : ∀ entries actions, raw = .map entries → ofValue raw = .ok actions →
    actions = assembled entries actions.lockReason
  /-- A single value is as good as the list with it. -/
  single : ∀ entries others, ∀ field ∈ textFields, raw = .map entries →
    Lists field entries others → ofValue raw = ofValue (.map others)
  /-- The two names of the labels are as good as one of them. -/
  aliases : ∀ entries others actions, raw = .map entries → Merges entries others →
    (ofValue raw = .ok actions ↔ ofValue (.map others) = .ok actions)
  /-- Nothing but the known fields has an influence. -/
  unknown : ∀ entries others, raw = .map entries →
    (∀ field ∈ "lockReason" :: (textFields ++ flagFields),
      Value.field entries field = Value.field others field) →
    ofValue raw = ofValue (.map others)
  /-- The lock reason is the one that is configured. -/
  reason : ∀ entries actions, raw = .map entries → ofValue raw = .ok actions →
    LockReason.ofValue (Value.field entries "lockReason") = .ok actions.lockReason
  /-- The lock reason names itself. -/
  reasonAgain : ∀ actions reason, ofValue raw = .ok actions → actions.lockReason = some reason →
    LockReason.ofValue (.str reason.text) = .ok (some reason)

theorem ofValue_normalizes (raw : Value) : Normalizes raw where
  ends := blames_ofValue raw
  mistaken := exists_configFault_iff
  succeeds := exists_ofValue_iff
  absent := ofValue_of_absent
  assembles := by
    rintro entries actions rfl made
    rw [ofValue_map, ofEntries_eq_ok_iff] at made
    exact made.2.2
  single := by
    rintro entries others field known rfl lists
    rw [ofValue_map, ofValue_map, lists.ofEntries_eq known]
  aliases := by
    rintro entries others actions rfl merges
    rw [ofValue_map, ofValue_map, merges.ofEntries_eq_ok_iff]
  unknown := by
    rintro entries others rfl same
    rw [ofValue_map, ofValue_map]
    apply ofEntries_congr
    · intro field known
      rw [textsIn, textsIn, same field (List.mem_cons_of_mem _ (List.mem_append_left _ known))]
    · intro field known
      apply same
      exact List.cons_subset_cons _ (List.subset_append_right _ _) known
  reason := by
    rintro entries actions rfl made
    rw [ofValue_map, ofEntries_eq_ok_iff] at made
    exact made.2.1
  reasonAgain _ reason _ _ := LockReason.ofValue_text reason

/-- Labels under both of their names, and a lock reason in a spelling of its own. -/
def labelling : List (Value × Value) :=
  [(.str "label", .str "bug"), (.str "labels", .list [.str "-triage", .str "bug"]),
    (.str "lockReason", .str " Too-Heated "), (.str "lock", .bool true)]

/-- The same with all labels under one name. -/
def relabelling : List (Value × Value) :=
  [(.str "labels", .list [.str "bug", .str "-triage", .str "bug"]),
    (.str "lockReason", .str " Too-Heated "), (.str "lock", .bool true)]

theorem merges_labelling : Merges labelling relabelling where
  moved := rfl
  merged := rfl
  elsewhere name notLabel notLabels := by
    simp only [labelling, relabelling, Value.field, Value.field?, beq_iff_eq, notLabel.symm,
      notLabels.symm, if_false]

theorem ofValue_labelling : ofValue (.map labelling) = .ok {
    labels := ["bug", "-triage", "bug"], lockReason := some .tooHeated, lock := true } := by
  rw [ofValue_map, ofEntries_eq_ok_iff, forall_textFields]
  refine ⟨?_, ?_, rfl⟩
  · simp [IsTaken, IsMisfit, isNested, labelling, Value.field, Value.field?, Value.isWritable,
      Value.allWritable]
  · have given : Value.field labelling "lockReason" = .str " Too-Heated " := rfl
    rw [given]
    apply LockReason.ofValue_of_found rfl (by rw [Value.isWritable])
    rw [LockReason.lookedUp, Value.display]
    decide

/-- Both ways of writing give the same action set. -/
theorem ofValue_normalizes_labelling :
    Merges labelling relabelling ∧
      ofValue (.map labelling) = .ok {
        labels := ["bug", "-triage", "bug"], lockReason := some .tooHeated, lock := true } ∧
      ofValue (.map relabelling) = .ok {
        labels := ["bug", "-triage", "bug"], lockReason := some .tooHeated, lock := true } :=
  ⟨merges_labelling, ofValue_labelling,
    ((ofValue_normalizes _).aliases _ _ _ rfl merges_labelling).mp ofValue_labelling⟩

/-- An integer with more digits than are written down. -/
def overlong : Value := .int (Nat.pow 16 4000 - 1)

theorem isWritable_overlong : overlong.isWritable = false := by
  rw [overlong, Value.isWritable]
  decide +kernel

/-- Such an integer is no lock reason, but it is not blamed for that; and although it is as good a
comment as any other integer, it is none. -/
theorem ofValue_overlong :
    (IsMistake (.map [(.str "lockReason", overlong)]) ∧
        ofValue (.map [(.str "lockReason", overlong)]) = .error .badValue) ∧
      (¬ IsMistake (.map [(.str "comment", overlong)]) ∧
        ofValue (.map [(.str "comment", overlong)]) = .error .badValue) ∧
      Fault.isConfigFault .badValue = false := by
  refine ⟨⟨?_, ?_⟩, ⟨?_, ?_⟩, rfl⟩
  · exact .inr ⟨rfl, LockReason.not_isNamedBy_int _⟩
  · have refused : LockReason.ofValue overlong = .error .badValue :=
      LockReason.ofValue_of_not_writable rfl isWritable_overlong
    have comments : textsIn [(.str "lockReason", overlong)] "comment" = .ok [] := rfl
    have reactions : textsIn [(.str "lockReason", overlong)] "reactions" = .ok [] := rfl
    have reason : Value.field [(.str "lockReason", overlong)] "lockReason" = overlong := rfl
    rw [ofValue_map, ofEntries, comments, reactions, reason, refused]
    rfl
  · rw [not_isMistake_map_iff, forall_textFields]
    exact ⟨⟨id, id, id, id, id⟩, .inl rfl⟩
  · have refused : textsIn [(.str "comment", overlong)] "comment" = .error .badValue := by
      rw [textsIn, show Value.field [(.str "comment", overlong)] "comment" = overlong from rfl,
        texts_of_fit "comment" (show ¬ IsMisfit overlong from id), isWritable_overlong]
      rfl
    rw [ofValue_map, ofEntries, refused]
    rfl

end ActionSet

end SlashBot

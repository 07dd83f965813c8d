import SlashBot.Config
import SlashBot.Proofs.Composing

/-!
# Constructing the value of a document

Each node of a tree is read as its tag says, and only some scalars can be at odds with their tags:
truth values, numbers and timestamps. So a configuration is a map or is refused as malformed, unless
such a scalar stands in the tree or the text itself is beyond the limits of the scanner.
-/

namespace SlashBot.Yaml

/-! ## Scalars at odds with their tags -/

theorem foreign_readBool (text : List Char) : FaultsAre Fault.Foreign (readBool text) := by
  simp only [readBool]
  split
  · exact faultsAre_ok _
  · exact faultsAre_error rfl

theorem foreign_readBase (base : Nat) (text : List Char) :
    FaultsAre Fault.Foreign (readBase base text) := by
  rw [readBase]
  split
  · exact faultsAre_ok _
  · exact faultsAre_error rfl

theorem foreign_readUnsignedInt (text : List Char) :
    FaultsAre Fault.Foreign (readUnsignedInt text) := by
  rw [readUnsignedInt.eq_def]
  split
  · exact faultsAre_error rfl
  · exact faultsAre_ok 0
  · exact foreign_readBase 2 _
  · exact foreign_readBase 16 _
  · exact foreign_readBase 8 _
  · exact faultsAre_ite ((faultsAre_mapM (foreign_readBase 10)).bind fun _ => faultsAre_ok _)
      (foreign_readBase 10 _)

theorem foreign_readInt (text : List Char) : FaultsAre Fault.Foreign (readInt text) := by
  rw [readInt]
  split
  · exact faultsAre_error rfl
  · exact (foreign_readUnsignedInt _).map _

theorem foreign_readDouble (text : List Char) : FaultsAre Fault.Foreign (readDouble text) := by
  rw [readDouble]
  split
  · exact faultsAre_ok _
  · exact faultsAre_error rfl

theorem foreign_addSixties (total : Number.Double) (weight : Nat) (groups : List Number.Double) :
    FaultsAre Fault.Foreign (addSixties total weight groups) := by
  induction groups generalizing total weight with
  | nil => exact faultsAre_ok total
  | cons group groups ih =>
      rw [addSixties]
      split
      · exact ih _ _
      · exact faultsAre_error rfl

theorem foreign_readUnsignedFloat (text : List Char) :
    FaultsAre Fault.Foreign (readUnsignedFloat text) := by
  rw [readUnsignedFloat]
  split
  · exact faultsAre_ok _
  · exact faultsAre_ok _
  · exact faultsAre_ite ((faultsAre_mapM foreign_readDouble).bind fun _ => foreign_addSixties _ _ _)
      (foreign_readDouble _)

theorem foreign_readFloat (text : List Char) : FaultsAre Fault.Foreign (readFloat text) := by
  rw [readFloat]
  split
  · exact faultsAre_error rfl
  · exact (foreign_readUnsignedFloat _).map _

theorem foreign_readTimestamp (text : List Char) :
    FaultsAre Fault.Foreign (readTimestamp text) := by
  rw [readTimestamp]
  split
  · exact faultsAre_error rfl
  · dsimp only
    split
    · exact faultsAre_error rfl
    · split
      · exact faultsAre_ok _
      · split
        · exact faultsAre_ok _
        · exact faultsAre_error rfl

theorem malformed_readBinary (text : List Char) :
    FaultsAre (· = .malformedConfig) (readBinary text) := by
  rw [readBinary]
  split
  · split
    · exact faultsAre_ok _
    · exact faultsAre_error rfl
  · exact faultsAre_error rfl

namespace Node

/-- The text that stands for a node: that of a scalar, or what a mapping lends as its default
value. -/
inductive Lends (text : String) : (node : Node) → Prop where
  | scalar {tag : Tag} : Lends text (.scalar tag text)
  | default {tag : Tag} {pairs : List (Node × Node)} {key value : Node}
      (first : pairs.find? (fun pair => pair.1.tag == .value) = some (key, value))
      (lends : Lends text value) : Lends text (.mapping tag pairs)

/-- The node is at odds with its tag: its text is none of a truth value, a number or a timestamp, or
a timestamp has no text of its own. -/
inductive Misfits : (node : Node) → (fault : Fault) → Prop where
  | number {node : Node} {text : String} {fault : Fault}
      (typed : node.tag = .bool ∨ node.tag = .int ∨ node.tag = .float) (lends : node.Lends text)
      (unread : readScalar node.tag text = .error fault) : Misfits node fault
  | time {text : String} {fault : Fault} (unread : readScalar .timestamp text = .error fault) :
      Misfits (.scalar .timestamp text) fault
  | lentTime {pairs : List (Node × Node)} {text : String}
      (lends : (Node.mapping .timestamp pairs).Lends text) :
      Misfits (.mapping .timestamp pairs) .wrongKind

/-- A misfit does not count as a mistake in the configuration. -/
theorem Misfits.foreign {node : Node} {fault : Fault} (misfits : node.Misfits fault) :
    fault.Foreign := by
  cases misfits with
  | number typed lends unread =>
      rcases typed with typed | typed | typed
      · rw [typed] at unread
        exact foreign_readBool _ fault unread
      · rw [typed] at unread
        exact foreign_readInt _ fault unread
      · rw [typed] at unread
        exact foreign_readFloat _ fault unread
  | time unread => exact foreign_readTimestamp _ fault unread
  | lentTime lends => rfl

theorem lends_of_scalarText? {fuel : Nat} {node : Node} {text : String}
    (found : scalarText? fuel node = some text) : node.Lends text := by
  induction fuel generalizing node with
  | zero => cases found
  | succ fuel ih =>
      cases node with
      | scalar tag written =>
          cases found
          exact .scalar
      | sequence tag items => cases found
      | mapping tag pairs =>
          rw [scalarText?] at found
          split at found
          · rename_i key value first
            exact .default first (ih found)
          · cases found

/-- A node that is read by a text that stands for it. A timestamp is read by its own text only. -/
theorem misfits_readScalar {node : Node} {text : String} (lends : node.Lends text)
    (own : node.tag = .timestamp → node = .scalar .timestamp text) :
    FaultsAre (fun fault => fault = .malformedConfig ∨ node.Misfits fault)
      (readScalar node.tag text) := by
  intro fault failed
  cases tagged : node.tag with
  | bool => exact .inr (.number (.inl tagged) lends failed)
  | int => exact .inr (.number (.inr (.inl tagged)) lends failed)
  | float => exact .inr (.number (.inr (.inr tagged)) lends failed)
  | timestamp =>
      rw [tagged] at failed
      rw [own tagged]
      exact .inr (.time failed)
  | binary =>
      rw [tagged] at failed
      exact .inl (malformed_readBinary _ fault failed)
  | _ =>
      rw [tagged] at failed
      cases failed
      all_goals exact .inl rfl

/-- A fault of a node as a scalar is that of a malformed document, or the node is a misfit. -/
theorem misfits_scalarValue (fuel : Nat) (node : Node) :
    FaultsAre (fun fault => fault = .malformedConfig ∨ node.Misfits fault)
      (node.scalarValue fuel) := by
  rw [scalarValue.eq_def]
  split
  · rename_i tag pairs tagged
    dsimp only [Node.tag] at tagged
    subst tagged
    split
    · rename_i lent
      obtain ⟨text, found⟩ := Option.isSome_iff_exists.mp lent
      exact faultsAre_error (.inr (.lentTime (lends_of_scalarText? found)))
    · exact faultsAre_error (.inl rfl)
  · rename_i unlent
    split
    · rename_i text found
      refine misfits_readScalar (lends_of_scalarText? found) fun tagged => ?_
      cases lends_of_scalarText? found with
      | scalar =>
          dsimp only [Node.tag] at tagged
          rw [tagged]
      | default => exact absurd rfl (unlent _ _ tagged)
    · exact faultsAre_error (.inl rfl)

/-! ## What stands within a tree -/

/-- A node is the other one or stands somewhere below it. -/
inductive Within (inner : Node) : (outer : Node) → Prop where
  | self : Within inner inner
  | item {tag : Tag} {items : List Node} {item : Node} (member : item ∈ items)
      (within : Within inner item) : Within inner (.sequence tag items)
  | key {tag : Tag} {pairs : List (Node × Node)} {pair : Node × Node} (member : pair ∈ pairs)
      (within : Within inner pair.1) : Within inner (.mapping tag pairs)
  | value {tag : Tag} {pairs : List (Node × Node)} {pair : Node × Node} (member : pair ∈ pairs)
      (within : Within inner pair.2) : Within inner (.mapping tag pairs)

theorem Within.trans {inner middle outer : Node} (first : inner.Within middle)
    (second : middle.Within outer) : inner.Within outer := by
  induction second with
  | self => exact first
  | item member _ ih => exact .item member ih
  | key member _ ih => exact .key member ih
  | value member _ ih => exact .value member ih

/-- A fault of a tree: that of a malformed document, or the fault of a misfit in the tree. -/
def Unbuilt (node : Node) (fault : Fault) : Prop :=
  fault = .malformedConfig ∨ ∃ inner : Node, inner.Within node ∧ inner.Misfits fault

theorem Unbuilt.of_within {inner outer : Node} {fault : Fault} (unbuilt : inner.Unbuilt fault)
    (within : inner.Within outer) : outer.Unbuilt fault := by
  rcases unbuilt with malformed | ⟨misfit, below, misfits⟩
  · exact .inl malformed
  · exact .inr ⟨misfit, below.trans within, misfits⟩

theorem Misfits.tag_ne_str {node : Node} {fault : Fault} (misfits : node.Misfits fault) :
    node.tag ≠ .str := by
  cases misfits with
  | number typed =>
      rcases typed with typed | typed | typed <;> simp [typed]
  | time => simp [tag]
  | lentTime => simp [tag]

/-- A node that is read as a key has no misfits that it does not have by itself. -/
theorem unbuilt_of_asKey {node : Node} {fault : Fault} (unbuilt : node.asKey.Unbuilt fault) :
    node.Unbuilt fault := by
  rcases unbuilt with malformed | ⟨misfit, below, misfits⟩
  · exact .inl malformed
  · have strays : ∀ {key : Node}, key.tag = .str → misfit ≠ key := by
      intro key tagged same
      exact misfits.tag_ne_str (same ▸ tagged)
    refine .inr ⟨misfit, ?_, misfits⟩
    fun_cases asKey node with
    | case1 text =>
        cases below with
        | self => exact absurd rfl (strays rfl)
    | case2 items =>
        cases below with
        | self => exact absurd rfl (strays rfl)
        | item member within => exact .item member within
    | case3 pairs =>
        cases below with
        | self => exact absurd rfl (strays rfl)
        | key member within => exact .key member within
        | value member within => exact .value member within
    | case4 node scalar sequence mapping =>
        rwa [asKey.eq_4 node scalar sequence mapping] at below

/-! ## Where merged pairs stand -/

/-- Both nodes of a pair are found where `found` looks, the first of them as a key. -/
def Supplied (found : Node → Prop) (pair : Node × Node) : Prop :=
  (∃ key : Node, found key ∧ pair.1 = key.asKey) ∧ found pair.2

/-- A node stands within one of the pairs. -/
def InPairs (pairs : List (Node × Node)) (inner : Node) : Prop :=
  ∃ pair ∈ pairs, inner.Within pair.1 ∨ inner.Within pair.2

theorem Supplied.imp {found wider : Node → Prop} {pair : Node × Node}
    (supplied : Supplied found pair) (widens : ∀ inner, found inner → wider inner) :
    Supplied wider pair := by
  obtain ⟨⟨key, keyFound, same⟩, valueFound⟩ := supplied
  exact ⟨⟨key, widens key keyFound, same⟩, widens _ valueFound⟩

theorem InPairs.tail {pairs : List (Node × Node)} {pair : Node × Node} {inner : Node}
    (found : InPairs pairs inner) : InPairs (pair :: pairs) inner := by
  obtain ⟨holder, member, within⟩ := found
  exact ⟨holder, .tail _ member, within⟩

theorem InPairs.within {pairs : List (Node × Node)} {tag : Tag} {inner : Node}
    (found : InPairs pairs inner) : inner.Within (.mapping tag pairs) := by
  obtain ⟨holder, member, within | within⟩ := found
  · exact .key member within
  · exact .value member within

mutual

theorem supplied_mergedPairs? {node : Node} {merged : List (Node × Node)}
    (all : node.mergedPairs? = some merged) :
    ∀ pair ∈ merged, Supplied (Within · node) pair := by
  cases node with
  | scalar tag text => cases all
  | sequence tag items => cases all
  | mapping tag pairs =>
      rw [mergedPairs?] at all
      obtain ⟨⟨taken, own⟩, split, rfl⟩ := Option.map_eq_some_iff.mp all
      intro pair member
      exact (supplied_splitPairs? split pair member).imp fun inner found => found.within

theorem supplied_splitPairs? {pairs taken own : List (Node × Node)}
    (all : splitPairs? pairs = some (taken, own)) :
    ∀ pair ∈ taken ++ own, Supplied (InPairs pairs) pair := by
  cases pairs with
  | nil =>
      cases all
      exact List.forall_mem_nil _
  | cons written rest =>
      obtain ⟨key, value⟩ := written
      have later : ∀ {taken own : List (Node × Node)}, splitPairs? rest = some (taken, own) →
          ∀ pair ∈ taken ++ own, Supplied (InPairs ((key, value) :: rest)) pair :=
        fun split pair member => (supplied_splitPairs? split pair member).imp fun _ => .tail
      have joined : ∀ {source : List (Node × Node)},
          (∀ pair ∈ source, Supplied (Within · value) pair) →
          ((splitPairs? rest).bind fun found => some (source ++ found.1, found.2)) =
            some (taken, own) →
          ∀ pair ∈ taken ++ own, Supplied (InPairs ((key, value) :: rest)) pair := by
        intro source supplied all pair member
        obtain ⟨⟨others, kept⟩, restSplit, all⟩ := Option.bind_eq_some_iff.mp all
        cases all
        rw [List.append_assoc] at member
        rcases List.mem_append.mp member with inSource | inRest
        · exact (supplied pair inSource).imp fun inner found => ⟨_, .head _, .inr found⟩
        · exact later restSplit pair inRest
      rw [splitPairs?] at all
      split at all
      · -- the pairs of a merge key come from its value
        cases value with
        | scalar tag text => cases all
        | mapping tag pairs =>
            obtain ⟨source, brought, all⟩ := Option.bind_eq_some_iff.mp all
            obtain ⟨⟨taken, own⟩, split, rfl⟩ := Option.map_eq_some_iff.mp brought
            refine joined (fun pair member => ?_) all
            exact (supplied_splitPairs? split pair member).imp fun inner found => found.within
        | sequence tag items =>
            obtain ⟨source, brought, all⟩ := Option.bind_eq_some_iff.mp all
            obtain ⟨sources, split, rfl⟩ := Option.map_eq_some_iff.mp brought
            refine joined (fun pair member => ?_) all
            obtain ⟨source, reversed, inside⟩ := List.mem_flatten.mp member
            exact (supplied_mergeSources? split source (List.mem_reverse.mp reversed) pair
              inside).imp fun inner ⟨item, holds, found⟩ => .item holds found
      · obtain ⟨⟨others, kept⟩, restSplit, all⟩ := Option.bind_eq_some_iff.mp all
        cases all
        intro pair member
        rcases List.mem_append.mp member with inOthers | inOwn
        · exact later restSplit pair (List.mem_append_left _ inOthers)
        · rcases List.mem_cons.mp inOwn with rfl | inKept
          · exact ⟨⟨key, ⟨_, .head _, .inl .self⟩, rfl⟩, ⟨_, .head _, .inr .self⟩⟩
          · exact later restSplit pair (List.mem_append_right _ inKept)

theorem supplied_mergeSources? {items : List Node} {sources : List (List (Node × Node))}
    (all : mergeSources? items = some sources) :
    ∀ source ∈ sources, ∀ pair ∈ source,
      Supplied (fun inner => ∃ item ∈ items, inner.Within item) pair := by
  cases items with
  | nil =>
      cases all
      exact List.forall_mem_nil _
  | cons item rest =>
      rw [mergeSources?] at all
      obtain ⟨first, firstAll, all⟩ := Option.bind_eq_some_iff.mp all
      obtain ⟨others, othersAll, all⟩ := Option.bind_eq_some_iff.mp all
      cases all
      intro source member
      rcases List.mem_cons.mp member with rfl | later
      · intro pair inside
        exact (supplied_mergedPairs? firstAll pair inside).imp fun inner found =>
          ⟨item, .head _, found⟩
      · intro pair inside
        exact (supplied_mergeSources? othersAll source later pair inside).imp
          fun inner ⟨holder, holds, found⟩ => ⟨holder, .tail _ holds, found⟩

end

/-! ## The fault that counts -/

/-- If an outcome is a fault, then the fault has a property, however far it is. -/
def FailsAs {α : Type} (property : Fault → Prop) (outcome : Outcome α) : Prop :=
  ∀ distance fault, outcome = .error (distance, fault) → property fault

section Outcomes

variable {α β : Type} {property : Fault → Prop}

theorem failsAs_ok (result : α) : FailsAs property (.ok result) := nofun

theorem failsAs_error {distance : Nat} {fault : Fault} (holds : property fault) :
    FailsAs property (.error (distance, fault) : Outcome α) := by
  intro other found failed
  cases failed
  exact holds

theorem FailsAs.imp {wider : Fault → Prop} {outcome : Outcome α} (fails : FailsAs property outcome)
    (widens : ∀ fault, property fault → wider fault) : FailsAs wider outcome :=
  fun distance fault failed => widens fault (fails distance fault failed)

theorem FailsAs.deeper {outcome : Outcome α} (fails : FailsAs property outcome) :
    FailsAs property (deeper outcome) := by
  cases outcome with
  | ok result => exact failsAs_ok result
  | error failure => exact failsAs_error (fails _ _ rfl)

theorem FailsAs.map {outcome : Outcome α} (image : α → β) (fails : FailsAs property outcome) :
    FailsAs property (outcome.map image) := by
  cases outcome with
  | ok result => exact failsAs_ok _
  | error failure => exact failsAs_error (fails _ _ rfl)

/-- Of two faults one is taken as it is. -/
theorem FailsAs.both {first : Outcome α} {second : Outcome β} (left : FailsAs property first)
    (right : FailsAs property second) : FailsAs property (both first second) := by
  fun_cases Yaml.both first second with
  | case1 => exact failsAs_ok _
  | case2 failure => exact failsAs_error (left _ _ rfl)
  | case3 result failure => exact failsAs_error (right _ _ rfl)
  | case4 failure other =>
      split
      · exact failsAs_error (right _ _ rfl)
      · exact failsAs_error (left _ _ rfl)

theorem failsAs_collect {outcomes : List (Outcome α)}
    (each : ∀ outcome ∈ outcomes, FailsAs property outcome) :
    FailsAs property (collect outcomes) := by
  induction outcomes with
  | nil => exact failsAs_ok []
  | cons outcome rest ih =>
      obtain ⟨first, later⟩ := List.forall_mem_cons.mp each
      exact (first.both (ih later)).map _

end Outcomes

/-! ## Building the value of a tree -/

variable {fuel : Nat} {node : Node}

theorem failsAs_build_part {part : Node} (ih : ∀ node, FailsAs node.Unbuilt (build fuel node))
    (within : part.Within node) : FailsAs node.Unbuilt (deeper (build fuel part)) :=
  ((ih part).imp fun _ unbuilt => unbuilt.of_within within).deeper

/-- The pairs of a mapping, those of its merge keys among them. -/
theorem failsAs_build_entries (ih : ∀ node, FailsAs node.Unbuilt (build fuel node)) :
    FailsAs node.Unbuilt
      (match node.mergedPairs? with
      | none => within .malformedConfig
      | some pairs =>
          collect (pairs.map fun pair =>
            both
              (if isCollectionTag pair.1.tag then within .malformedConfig
              else deeper (build fuel pair.1))
              (deeper (build fuel pair.2)))) := by
  split
  · exact failsAs_error (.inl rfl)
  · rename_i pairs merged
    refine failsAs_collect (List.forall_mem_map.mpr fun pair member => ?_)
    obtain ⟨⟨key, below, same⟩, valueBelow⟩ := supplied_mergedPairs? merged pair member
    refine FailsAs.both ?_ (failsAs_build_part ih valueBelow)
    split
    · exact failsAs_error (.inl rfl)
    · rw [same]
      exact ((ih key.asKey).imp fun _ unbuilt => (unbuilt_of_asKey unbuilt).of_within below).deeper

theorem within_of_items? {items : List Node} (found : node.items? = some items) {item : Node}
    (member : item ∈ items) : item.Within node := by
  cases node with
  | sequence tag written =>
      cases found
      exact .item member .self
  | _ => cases found

theorem within_of_onlyPair? {pair : Node × Node} (found : node.onlyPair? = some pair) :
    pair.1.Within node ∧ pair.2.Within node := by
  cases node with
  | mapping tag pairs =>
      match pairs, found with
      | [_], rfl => exact ⟨.key (.head _) .self, .value (.head _) .self⟩
  | _ => cases found

/-- The pairs of a sequence of mappings with one pair each. -/
theorem failsAs_build_pairItems (ih : ∀ node, FailsAs node.Unbuilt (build fuel node)) :
    FailsAs node.Unbuilt
      (match node.items? with
      | none => within .malformedConfig
      | some items =>
          collect (items.map fun item =>
            match item.onlyPair? with
            | none => within .malformedConfig
            | some (key, value) =>
                (both (deeper (build fuel key)) (deeper (build fuel value))).map
                  fun (key, value) => Value.pair key value)) := by
  split
  · exact failsAs_error (.inl rfl)
  · rename_i items found
    refine failsAs_collect (List.forall_mem_map.mpr fun item member => ?_)
    split
    · exact failsAs_error (.inl rfl)
    · rename_i key value only
      obtain ⟨keyBelow, valueBelow⟩ := within_of_onlyPair? only
      have below := within_of_items? found member
      exact ((failsAs_build_part ih (keyBelow.trans below)).both
        (failsAs_build_part ih (valueBelow.trans below))).map _

/-- A tree is built, or its fault is that of a malformed document or of a misfit in the tree. This
is an induction on the fuel, with one case for each way in which a tag reads its node. -/
theorem failsAs_build (fuel : Nat) (node : Node) : FailsAs node.Unbuilt (build fuel node) := by
  induction fuel generalizing node with
  | zero => exact failsAs_error (.inl rfl)
  | succ fuel ih =>
      rw [build]
      split
      · exact (failsAs_build_entries ih).map _
      · exact (failsAs_build_entries ih).map _
      · split
        · exact failsAs_error (.inl rfl)
        · rename_i items found
          refine (failsAs_collect (List.forall_mem_map.mpr fun item member => ?_)).map _
          exact failsAs_build_part ih (within_of_items? found member)
      · exact (failsAs_build_pairItems ih).map _
      · exact (failsAs_build_pairItems ih).map _
      · split
        · exact failsAs_ok _
        · rename_i fault failed
          refine failsAs_error ?_
          exact (misfits_scalarValue _ node fault failed).imp_right fun misfits =>
            ⟨node, .self, misfits⟩

end Node

/-- A document has no value because it has no tree, or because of a misfit in its tree. -/
theorem faultsAre_valueOf (text : String) :
    FaultsAre (fun fault => Unscanned text.toList fault ∨
      ∃ root : Node, Node.ofText text.toList = .ok (some root) ∧ root.Unbuilt fault)
      (valueOf text) := by
  intro fault failed
  rw [valueOf] at failed
  cases composed : Node.ofText text.toList with
  | error other =>
      rw [composed] at failed
      cases failed
      exact .inl (unscanned_ofText _ _ composed)
  | ok tree =>
      rw [composed] at failed
      cases tree with
      | none => cases failed
      | some root =>
          have built : (root.build root.height).mapError (·.2) = .error fault := failed
          cases outcome : root.build root.height with
          | ok value =>
              rw [outcome] at built
              cases built
          | error failure =>
              rw [outcome] at built
              cases built
              exact .inr ⟨root, rfl, root.failsAs_build _ _ _ outcome⟩

end SlashBot.Yaml

namespace SlashBot.Config

open Yaml

/-- What may be beyond reading in a document that has a form, with its fault: something that the
scanner has a limit for, or a misfit in the tree. -/
def Unreadable (content : String) (fault : Fault) : Prop :=
  Excess content.toList fault ∨
    ∃ root inner : Node, Node.ofText content.toList = .ok (some root) ∧ inner.Within root ∧
      inner.Misfits fault

theorem Unreadable.foreign {content : String} {fault : Fault}
    (unreadable : Unreadable content fault) : fault.Foreign := by
  rcases unreadable with excess | ⟨_, _, _, _, misfits⟩
  · exact excess.foreign
  · exact misfits.foreign

theorem eq_badValue {outcome : Except Fault Value}
    (refused : (match outcome with | .error .badValue => true | _ => false) = true) :
    outcome = .error .badValue := by
  split at refused
  · rfl
  · cases refused

end SlashBot.Config

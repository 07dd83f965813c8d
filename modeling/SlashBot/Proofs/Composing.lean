import SlashBot.Proofs.Scanning
import SlashBot.Yaml.Node

/-!
# Composing the tree of a document

The tokens of a document are composed into a tree by builders. A builder refuses a document that has
no form, and it may find that there are no more tokens; it fails for no other reason. So a document
without a tree has no form, or holds something that is beyond the limits of the scanner.
-/

namespace SlashBot.Yaml

/-- A builder keeps the reason why there are no more tokens. It fails with that reason, or because
the document has no form. -/
structure Builder.Refuses {α : Type} (builder : Builder α) : Prop where
  keeps : ∀ state result later, builder state = .ok (result, later) →
    later.stream.ending = state.stream.ending
  faults : ∀ state,
    FaultsAre (fun fault => fault = .malformedConfig ∨ fault = state.stream.ending) (builder state)

namespace Builder

variable {α β : Type} {builder : Builder α} {next : α → Builder β}

theorem bind_apply (state : Building) :
    (builder >>= next : Builder β) state =
      builder state >>= fun found => next found.1 found.2 := rfl

theorem Refuses.bind (first : builder.Refuses) (second : ∀ result, (next result).Refuses) :
    (builder >>= next : Builder β).Refuses := by
  constructor
  · intro state result later ran
    rcases exists_of_bind_ok ran with ⟨⟨middle, between⟩, began, continued⟩
    rw [(second middle).keeps between result later continued]
    exact first.keeps state middle between began
  · intro state fault failed
    rw [bind_apply] at failed
    cases began : builder state with
    | error other =>
        rw [began] at failed
        cases failed
        exact first.faults state _ began
    | ok found =>
        rw [began] at failed
        rw [← first.keeps state found.1 found.2 began]
        exact (second found.1).faults found.2 fault failed

theorem refuses_pure (result : α) : (pure result : Builder α).Refuses where
  keeps state given later ran := by
    cases ran
    rfl
  faults state := faultsAre_ok _

theorem refuses_refuse : (refuse : Builder α).Refuses where
  keeps _ _ _ made := by cases made
  faults _ := faultsAre_error (.inl rfl)

theorem refuses_get : (get : Builder Building).Refuses where
  keeps state given later ran := by
    cases ran
    rfl
  faults state := faultsAre_ok _

theorem refuses_modify {change : Building → Building}
    (same : ∀ state, (change state).stream.ending = state.stream.ending) :
    (modify change : Builder Unit).Refuses where
  keeps state given later ran := by
    cases ran
    exact same state
  faults state := faultsAre_ok _

theorem refuses_ite {condition : Prop} [Decidable condition] {first second : Builder α}
    (positive : first.Refuses) (negative : second.Refuses) :
    (if condition then first else second).Refuses := by
  split
  · exact positive
  · exact negative

/-- The next token, or the reason why there is none. -/
theorem peek_apply (state : Building) : peek state =
    match state.stream.tokens with
    | token :: _ => .ok (token, state)
    | [] => .error state.stream.ending := by
  rcases state with ⟨⟨tokens, ending⟩, handles, names, anchors⟩
  cases tokens <;> rfl

theorem refuses_peek : peek.Refuses := by
  constructor
  · intro state result later ran
    rw [peek_apply] at ran
    split at ran
    · cases ran
      rfl
    · cases ran
  · intro state
    rw [peek_apply]
    split
    · exact faultsAre_ok _
    · exact faultsAre_error (.inr rfl)

theorem refuses_skip : skip.Refuses :=
  refuses_modify fun _ => rfl

theorem refuses_expect (token : Token) : (expect token).Refuses :=
  refuses_peek.bind fun _ => refuses_ite refuses_skip refuses_refuse

theorem refuses_properties : properties.Refuses := by
  refine refuses_peek.bind fun token => ?_
  split
  · refine refuses_skip.bind fun _ => refuses_peek.bind fun token => ?_
    split
    · exact refuses_skip.bind fun _ => refuses_pure _
    · exact refuses_pure _
  · refine refuses_skip.bind fun _ => refuses_peek.bind fun token => ?_
    split
    · exact refuses_skip.bind fun _ => refuses_pure _
    · exact refuses_pure _
  · exact refuses_pure _

theorem refuses_fullTag (tag : Option String × String) : (fullTag tag).Refuses := by
  rcases tag with ⟨handle, suffix⟩
  cases handle with
  | none => exact refuses_pure suffix
  | some handle =>
      refine refuses_get.bind fun state => ?_
      split
      · exact refuses_pure _
      · exact refuses_refuse

theorem refuses_claimName (anchor : Option String) : (claimName anchor).Refuses := by
  cases anchor with
  | none => exact refuses_pure ()
  | some name =>
      exact refuses_get.bind fun _ => refuses_ite refuses_refuse (refuses_modify fun _ => rfl)

theorem refuses_keep (anchor : Option String) (node : Node) : (keep anchor node).Refuses := by
  cases anchor with
  | none => exact refuses_pure node
  | some name =>
      refine Refuses.bind (refuses_modify ?_) fun _ => refuses_pure node
      intro state
      rfl

theorem refuses_aliased (name : String) : (aliased name).Refuses := by
  refine refuses_get.bind fun state => ?_
  split
  · exact refuses_pure _
  · exact refuses_refuse

/-- A node that is claimed under its name and then completed. -/
theorem refuses_complete {anchor : Option String} {image : α → Node} (builds : builder.Refuses) :
    (claimName anchor >>= fun _ => builder >>= fun part => keep anchor (image part) :
      Builder Node).Refuses :=
  (refuses_claimName anchor).bind fun _ => builds.bind fun _ => refuses_keep anchor _

end Builder

open Builder

/-! ## The builders of nodes -/

theorem refuses_buildEmpty (anchor tag : Option String) : (buildEmpty anchor tag).Refuses := by
  rw [buildEmpty]
  exact refuses_ite refuses_refuse ((refuses_claimName anchor).bind fun _ => refuses_keep anchor _)

/-- All builders of nodes refuse and keep, with this fuel. -/
structure RefuseWith (fuel : Nat) : Prop where
  node : ∀ place, (buildNode place fuel).Refuses
  optional : ∀ place closing, (buildOptional place closing fuel).Refuses
  items : ∀ reversed, (buildItems reversed fuel).Refuses
  bareItems : ∀ reversed, (buildBareItems reversed fuel).Refuses
  pairs : ∀ reversed, (buildPairs reversed fuel).Refuses
  pairValue : (buildPairValue fuel).Refuses
  flowItems : ∀ first reversed, (buildFlowItems first reversed fuel).Refuses
  flowPairs : ∀ first reversed, (buildFlowPairs first reversed fuel).Refuses
  flowValue : ∀ closing, (buildFlowValue closing fuel).Refuses

theorem refuseWith_zero : RefuseWith 0 := by
  constructor <;> intros <;> exact refuses_refuse

section Step

variable {fuel : Nat} (less : RefuseWith fuel)

include less

theorem refuses_buildNode (place : Place) : (buildNode place (fuel + 1)).Refuses := by
  rw [buildNode]
  refine refuses_peek.bind fun token => ?_
  split
  · exact refuses_skip.bind fun _ => refuses_aliased _
  · refine refuses_properties.bind fun found => ?_
    rcases found with ⟨anchor, properTag⟩
    have resolves : (properTag.mapM fullTag : Builder (Option String)).Refuses := by
      cases properTag with
      | none => exact refuses_pure none
      | some tag => exact (refuses_fullTag tag).bind fun _ => refuses_pure _
    refine resolves.bind fun tag => refuses_peek.bind fun token => ?_
    have empty := refuses_buildEmpty anchor tag
    split
    · exact refuses_skip.bind fun _ => (refuses_claimName anchor).bind fun _ => refuses_keep _ _
    · exact refuses_skip.bind fun _ => refuses_complete (less.flowItems _ _)
    · exact refuses_skip.bind fun _ => refuses_complete (less.flowPairs _ _)
    · exact refuses_ite empty (refuses_skip.bind fun _ => refuses_complete (less.items _))
    · exact refuses_ite empty (refuses_skip.bind fun _ => refuses_complete (less.pairs _))
    · exact refuses_ite (refuses_complete (less.bareItems _)) empty
    · exact empty

theorem refuses_buildOptional (place : Place) (closing : List Token) :
    (buildOptional place closing (fuel + 1)).Refuses := by
  rw [buildOptional]
  exact refuses_peek.bind fun _ => refuses_ite (refuses_pure _) (less.node place)

theorem refuses_buildItems (reversed : List Node) : (buildItems reversed (fuel + 1)).Refuses := by
  rw [buildItems]
  exact refuses_peek.bind fun _ => refuses_ite
    (refuses_skip.bind fun _ => (less.optional _ _).bind fun _ => less.items _)
    ((refuses_expect _).bind fun _ => refuses_pure _)

theorem refuses_buildBareItems (reversed : List Node) :
    (buildBareItems reversed (fuel + 1)).Refuses := by
  rw [buildBareItems]
  exact refuses_peek.bind fun _ => refuses_ite
    (refuses_skip.bind fun _ => (less.optional _ _).bind fun _ => less.bareItems _)
    (refuses_pure _)

theorem refuses_buildPairs (reversed : List (Node × Node)) :
    (buildPairs reversed (fuel + 1)).Refuses := by
  rw [buildPairs]
  refine refuses_peek.bind fun token => ?_
  split
  · exact refuses_skip.bind fun _ => (less.optional _ _).bind fun _ =>
      less.pairValue.bind fun _ => less.pairs _
  · exact (refuses_expect _).bind fun _ => refuses_pure _

theorem refuses_buildPairValue : (buildPairValue (fuel + 1)).Refuses := by
  rw [buildPairValue]
  exact refuses_peek.bind fun _ => refuses_ite
    (refuses_skip.bind fun _ => less.optional _ _) (refuses_pure _)

theorem refuses_buildFlowItems (first : Bool) (reversed : List Node) :
    (buildFlowItems first reversed (fuel + 1)).Refuses := by
  rw [buildFlowItems]
  refine refuses_peek.bind fun _ => refuses_ite (refuses_skip.bind fun _ => refuses_pure _) ?_
  -- An item follows, with a comma before it or as the first.
  refine refuses_ite ((refuses_expect _).bind fun _ => ?_) ?_
  all_goals
    refine refuses_peek.bind fun token => ?_
    split
    · exact refuses_skip.bind fun _ => (less.optional _ _).bind fun _ =>
        (less.flowValue _).bind fun _ => less.flowItems _ _
    · exact refuses_skip.bind fun _ => refuses_pure _
    · exact (less.node _).bind fun _ => less.flowItems _ _

theorem refuses_buildFlowPairs (first : Bool) (reversed : List (Node × Node)) :
    (buildFlowPairs first reversed (fuel + 1)).Refuses := by
  rw [buildFlowPairs]
  refine refuses_peek.bind fun _ => refuses_ite (refuses_skip.bind fun _ => refuses_pure _) ?_
  refine refuses_ite ((refuses_expect _).bind fun _ => ?_) ?_
  all_goals
    refine refuses_peek.bind fun token => ?_
    split
    · exact refuses_skip.bind fun _ => (less.optional _ _).bind fun _ =>
        (less.flowValue _).bind fun _ => less.flowPairs _ _
    · exact refuses_skip.bind fun _ => refuses_pure _
    · exact (less.node _).bind fun _ => less.flowPairs _ _

theorem refuses_buildFlowValue (closing : List Token) :
    (buildFlowValue closing (fuel + 1)).Refuses := by
  rw [buildFlowValue]
  exact refuses_peek.bind fun _ => refuses_ite
    (refuses_skip.bind fun _ => less.optional _ _) (refuses_pure _)

end Step

/-- The builders call each other, so this is one induction on the fuel. -/
theorem refuseWith (fuel : Nat) : RefuseWith fuel := by
  induction fuel with
  | zero => exact refuseWith_zero
  | succ fuel ih =>
      exact {
        node := refuses_buildNode ih
        optional := refuses_buildOptional ih
        items := refuses_buildItems ih
        bareItems := refuses_buildBareItems ih
        pairs := refuses_buildPairs ih
        pairValue := refuses_buildPairValue ih
        flowItems := refuses_buildFlowItems ih
        flowPairs := refuses_buildFlowPairs ih
        flowValue := refuses_buildFlowValue ih }

/-! ## Documents -/

theorem refuses_buildDirectives (versionSeen : Bool) (handles : List (String × String))
    (fuel : Nat) : (buildDirectives versionSeen handles fuel).Refuses := by
  induction fuel generalizing versionSeen handles with
  | zero => exact refuses_refuse
  | succ fuel ih =>
      rw [buildDirectives]
      refine refuses_peek.bind fun token => ?_
      split
      · refine refuses_skip.bind fun _ => ?_
        split
        · exact refuses_ite refuses_refuse (ih _ _)
        · exact refuses_ite refuses_refuse (ih _ _)
        · exact ih _ _
      · exact refuses_pure _

theorem refuses_skipDocumentEnds (fuel : Nat) : (skipDocumentEnds fuel).Refuses := by
  induction fuel with
  | zero => exact refuses_refuse
  | succ fuel ih =>
      rw [skipDocumentEnds]
      exact refuses_peek.bind fun _ => refuses_ite (refuses_skip.bind fun _ => ih) (refuses_pure _)

/-- What follows the tree of a document. -/
theorem refuses_closing (fuel : Nat) (node : Node) :
    (skipDocumentEnds fuel >>= fun _ => peek >>= fun token =>
      if token == .streamEnd then pure (some node)
      else do
        let _ ← buildDirectives false [] fuel
        expect .documentStart
        refuse : Builder (Option Node)).Refuses :=
  (refuses_skipDocumentEnds fuel).bind fun _ => refuses_peek.bind fun _ =>
    refuses_ite (refuses_pure _)
      ((refuses_buildDirectives _ _ _).bind fun _ => (refuses_expect _).bind fun _ =>
        refuses_refuse)

theorem refuses_buildDocument : buildDocument.Refuses := by
  rw [buildDocument]
  refine Refuses.bind (refuses_get.bind fun _ => refuses_pure _) fun tokens => ?_
  have node := (refuseWith (4 * tokens.length + 8)).node .block
  refine refuses_peek.bind fun token => ?_
  split
  case h_1 => exact refuses_pure none
  case h_4 => exact node.bind fun node => refuses_closing _ node
  -- Directives, or a mark at the start, stand before the tree.
  all_goals
    refine (refuses_buildDirectives _ _ _).bind fun handles => ?_
    refine Refuses.bind (refuses_modify fun _ => rfl) fun _ => ?_
    refine (refuses_expect _).bind fun _ => ?_
    refine Refuses.bind ?_ fun node => refuses_closing _ node
    exact refuses_peek.bind fun _ => refuses_ite (refuses_pure _) node

/-- A document without a tree has no form, or is beyond the limits of the scanner. -/
theorem unscanned_ofText (text : List Char) : FaultsAre (Unscanned text) (Node.ofText text) := by
  intro fault failed
  rw [Node.ofText] at failed
  cases ran : buildDocument.run ⟨tokensOf text, usualHandles, [], []⟩ with
  | error other =>
      rw [ran] at failed
      cases failed
      rcases refuses_buildDocument.faults _ _ ran with rfl | rfl
      · exact .inl rfl
      · exact unscanned_tokensOf text
  | ok found =>
      rw [ran] at failed
      cases failed

end SlashBot.Yaml

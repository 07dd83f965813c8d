import SlashBot.Proofs.Listing
import SlashBot.Proofs.Lookup
import SlashBot.Proofs.Normalizing
import SlashBot.Proofs.Reacting

/-!
# Reactions in a configuration

The names of reactions are written as plain scalars, read by their spelling, turned into texts
again, and looked up when a comment has been made. All names come through this but one: the plain
scalar `+1` is an integer, which has lost its sign once it is a text again.
-/

namespace SlashBot

open Yaml Yaml.Builder

/-! ## Names of reactions as plain scalars -/

/-- What a plain scalar with the name of a reaction is read as. -/
def nameValue (name : String) : Value :=
  if name = "+1" then .int 1 else if name = "-1" then .int (-1) else .str name

/-- The name of a reaction when it has been a plain scalar. -/
def spoken (name : String) : String :=
  if name = "+1" then "1" else name

section Names

variable {name : String} {names : List String}

theorem ofPlain_reaction (known : name ∈ reactionNames) :
    Tag.ofPlain name = if name = "+1" ∨ name = "-1" then .int else .str := by
  revert name
  decide

theorem readScalar_reaction (known : name ∈ reactionNames) :
    readScalar (Tag.ofPlain name) name = .ok (nameValue name) := by
  rw [ofPlain_reaction known]
  by_cases plus : name = "+1"
  · subst plus
    rfl
  · by_cases minus : name = "-1"
    · subst minus
      rfl
    · rw [if_neg (by simp [plus, minus]), nameValue, if_neg plus, if_neg minus]
      rfl

theorem display_nameValue (known : name ∈ reactionNames) :
    (nameValue name).display = spoken name := by
  revert name
  decide

theorem isTaken_names (known : ∀ name ∈ names, name ∈ reactionNames) :
    ActionSet.IsTaken (.list (names.map nameValue)) := by
  have each : ∀ name ∈ reactionNames, ActionSet.isNested (nameValue name) = false ∧
      (nameValue name).isWritable = true := by
    decide +kernel
  refine ActionSet.isTaken_iff.mpr fun item member => ?_
  obtain ⟨name, listed, rfl⟩ := List.mem_map.mp member
  exact each name (known name listed)

theorem isWord_reaction (known : name ∈ reactionNames) : IsWord name.toList := by
  revert name
  decide

theorem spoken_eq_self_iff : spoken name = name ↔ name ≠ "+1" := by
  constructor
  · rintro same rfl
    exact absurd same (by decide)
  · exact fun other => if_neg other

/-- Only the name that loses its sign comes out as another text. -/
theorem map_spoken_eq_self_iff : names.map spoken = names ↔ "+1" ∉ names := by
  have each : names.map spoken = names ↔ ∀ name ∈ names, spoken name = name := by
    rw [← List.map_inj_left, List.map_id']
  rw [each]
  constructor
  · intro same listed
    exact spoken_eq_self_iff.mp (same "+1" listed) rfl
  · exact fun unlisted name listed => spoken_eq_self_iff.mpr fun plus => unlisted (plus ▸ listed)

/-- The name that has lost its sign is none of a reaction any more. -/
theorem filter_map_spoken (known : ∀ name ∈ names, name ∈ reactionNames) :
    (names.map spoken).filter reactionNames.contains = names.filter (· ≠ "+1") := by
  induction names with
  | nil => rfl
  | cons name names ih =>
      have others := ih fun other listed => known other (List.mem_cons_of_mem _ listed)
      rw [List.map_cons]
      by_cases plus : name = "+1"
      · subst plus
        rw [List.filter_cons_of_neg (by decide), List.filter_cons_of_neg (by simp), others]
      · have present : reactionNames.contains name = true :=
          List.contains_iff_mem.mpr (known name List.mem_cons_self)
        rw [spoken_eq_self_iff.mpr plus, List.filter_cons_of_pos present,
          List.filter_cons_of_pos (by simpa using plus), others]

/-! ## The list of a configuration -/

/-- Names as the plain scalars of a list. -/
def listNode (names : List String) : Node := .sequence .seq (names.map plain)

theorem build_plain (known : name ∈ reactionNames) (fuel : Nat) :
    (plain name).build (fuel + 1) = .ok (nameValue name) := by
  have read := readScalar_reaction known
  have scalar (tag : Tag) (own : tag = .int ∨ tag = .str)
      (reads : readScalar tag name = .ok (nameValue name)) :
      (Node.scalar tag name).build (fuel + 1) = .ok (nameValue name) := by
    rcases own with rfl | rfl
    · have found : Node.scalarValue (fuel + 1) (.scalar .int name) = _ := reads
      simp only [Node.build, Node.tag, found]
    · have found : Node.scalarValue (fuel + 1) (.scalar .str name) = _ := reads
      simp only [Node.build, Node.tag, found]
  refine scalar _ ?_ read
  rw [ofPlain_reaction known]
  split
  · exact .inl rfl
  · exact .inr rfl

theorem build_listNode (known : ∀ name ∈ names, name ∈ reactionNames) (fuel : Nat) :
    (listNode names).build (fuel + 2) = .ok (.list (names.map nameValue)) := by
  have items : (names.map plain).map (fun item => deeper (item.build (fuel + 1))) =
      (names.map nameValue).map .ok := by
    rw [List.map_map, List.map_map]
    refine List.map_congr_left fun name member => ?_
    exact Node.deeper_eq_ok.mpr (build_plain (known name member) fuel)
  have collected := Node.collect_eq_ok.mpr items
  rw [listNode, Node.build]
  simp only [Node.tag, Node.items?, collected]
  rfl

/-- A map with these names for its reactions has them, as they are spoken. -/
theorem reactions_of_field {entries : List (Value × Value)} {actions : ActionSet}
    (known : ∀ name ∈ names, name ∈ reactionNames)
    (held : Value.field entries "reactions" = .list (names.map nameValue))
    (made : ActionSet.ofValue (.map entries) = .ok actions) :
    actions.reactions = names.map spoken := by
  rw [ActionSet.ofValue_map] at made
  obtain ⟨-, -, assembled⟩ := ActionSet.ofEntries_eq_ok_iff.mp made
  have displayed : actions.reactions = ActionSet.displays entries "reactions" :=
    congrArg ActionSet.reactions assembled
  rw [displayed, ActionSet.displays, held, ActionSet.itemsOf, List.map_map]
  exact List.map_congr_left fun name member => display_nameValue (known name member)

end Names

/-! ## Whole documents -/

namespace Yaml.Listing

variable (listing : Listing)

/-- The words are names of reactions, and the other ones are not read as anything but texts. -/
structure Reacts (listing : Listing) (names : List String) : Prop where
  words : listing.words = names.map String.toList
  name : Tag.ofPlain listing.name = .str
  remark : Tag.ofPlain listing.remark = .str

variable {listing} {names : List String}

/-- The actions that the document configures for its command. -/
def configured (listing : Listing) (names : List String) : Value :=
  .map [(.str "comment", .str listing.remark), (.str "reactions", .list (names.map nameValue))]

/-- What the document configures. -/
def config (listing : Listing) (names : List String) : Value :=
  .map [(.str listing.name, listing.configured names)]

theorem plain_eq {w : String} (text : Tag.ofPlain w = .str) :
    plain w = .scalar .str w := by
  rw [plain, text]

theorem plainNodes_toList (names : List String) :
    plainNodes (names.map String.toList) = names.map plain := by
  simp [plainNodes, Function.comp_def]

theorem Reacts.entry_eq (reacts : listing.Reacts names) :
    listing.entry = Node.ofTexts
      [("comment", .scalar .str listing.remark), ("reactions", listNode names)] := by
  rw [entry, plain_eq (w := "comment") (by decide),
    plain_eq (w := "reactions") (by decide), plain_eq reacts.remark, reacts.words,
    plainNodes_toList]
  rfl

theorem Reacts.tree_eq (reacts : listing.Reacts names) :
    listing.tree = Node.ofTexts [(listing.name, listing.entry)] := by
  rw [tree, plain_eq reacts.name]
  rfl

theorem Reacts.build_entry (reacts : listing.Reacts names)
    (known : ∀ name ∈ names, name ∈ reactionNames) (fuel : Nat) :
    listing.entry.build (fuel + 3) = .ok (listing.configured names) := by
  have parts : ∀ part ∈ [("comment", Node.scalar .str listing.remark, Value.str listing.remark),
      ("reactions", listNode names, .list (names.map nameValue))],
      Node.build (fuel + 2) part.2.1 = .ok part.2.2 :=
    List.forall_mem_cons.mpr ⟨rfl, List.forall_mem_singleton.mpr (build_listNode known fuel)⟩
  rw [reacts.entry_eq]
  exact Node.build_ofTexts parts

theorem Reacts.build_tree (reacts : listing.Reacts names)
    (known : ∀ name ∈ names, name ∈ reactionNames) (fuel : Nat) :
    listing.tree.build (fuel + 4) = .ok (listing.config names) := by
  have parts : ∀ part ∈ [(listing.name, listing.entry, listing.configured names)],
      Node.build (fuel + 3) part.2.1 = .ok part.2.2 :=
    List.forall_mem_singleton.mpr (reacts.build_entry known fuel)
  rw [reacts.tree_eq]
  exact Node.build_ofTexts parts

theorem height_tree (listing : Listing) : ∃ fuel, listing.tree.height = fuel + 4 := by
  obtain ⟨word, words, same⟩ := List.exists_cons_of_ne_nil listing.filled
  have item : 1 ≤ Node.itemsHeight (plainNodes listing.words) := by
    rw [same, plainNodes, List.map_cons, Node.itemsHeight, plain, Node.height]
    omega
  have list : 2 ≤ (Node.sequence .seq (plainNodes listing.words)).height := by
    rw [Node.height]
    omega
  have entry : 3 ≤ listing.entry.height := by
    rw [entry, Node.height, Node.pairsHeight, Node.pairsHeight]
    omega
  have tree : 4 ≤ listing.tree.height := by
    rw [Listing.tree, Node.height, Node.pairsHeight]
    omega
  exact ⟨listing.tree.height - 4, by omega⟩

theorem ofText_toList_content : Node.ofText listing.content.toList = .ok (some listing.tree) := by
  rw [content, String.toList_ofList]
  exact listing.ofText_text

/-- The document configures the command with its comment and the reactions. -/
theorem Reacts.ofText_content (reacts : listing.Reacts names)
    (known : ∀ name ∈ names, name ∈ reactionNames) :
    Config.ofText listing.content = .ok (listing.config names) := by
  obtain ⟨fuel, high⟩ := listing.height_tree
  have valued : valueOf listing.content = .ok (listing.config names) := by
    rw [valueOf, ofText_toList_content]
    simp only [bind, Except.bind, high, reacts.build_tree known]
    rfl
  rw [Config.ofText, valued]
  rfl

/-- No section has the command. -/
theorem isNull_sectionEntry {context : String} (known : context ∈ Config.contexts)
    (own : listing.name ∉ Config.contexts) (value : Value) :
    (Config.sectionEntry [(.str listing.name, value)] context listing.name).isNull = true := by
  have other : listing.name ≠ context := fun same => own (same ▸ known)
  simp [Config.sectionEntry, Value.field, Value.field?, other, Value.isNull]

/-- The entry of the command is found at the top level. -/
theorem actionsFor_config {context : String} (known : context ∈ Config.contexts)
    (own : listing.name ∉ Config.contexts) :
    Config.actionsFor (listing.config names) context listing.name =
      .ok (listing.configured names) := by
  rw [config, Config.actionsFor_of_flat (isNull_sectionEntry known own _), Config.flatEntry,
    if_neg (by simpa [List.contains_iff_mem] using own)]
  simp [configured, Value.field, Value.field?, Value.orElse, Value.truthy]

/-- The action set has the comment and the reactions, and nothing else. -/
theorem ofValue_configured (known : ∀ name ∈ names, name ∈ reactionNames) :
    ActionSet.ofValue (listing.configured names) =
      .ok { comments := [listing.remark], reactions := names.map spoken } := by
  have displays : (names.map nameValue).map Value.display = names.map spoken := by
    rw [List.map_map]
    exact List.map_congr_left fun name member => display_nameValue (known name member)
  have text : ActionSet.IsTaken (.str listing.remark) := by
    simp [ActionSet.isTaken_iff, ActionSet.itemsOf, ActionSet.isNested, Value.isWritable]
  have absent : ActionSet.IsTaken .null := by
    simp [ActionSet.isTaken_iff, ActionSet.itemsOf]
  rw [configured, ActionSet.ofValue_map]
  refine ActionSet.ofEntries_eq_ok_iff.mpr ⟨?_, ?_, ?_⟩
  · exact ActionSet.forall_textFields.mpr ⟨text, isTaken_names known, absent, absent, absent⟩
  · rfl
  · rw [← displays]
    rfl

end Yaml.Listing

/-! ## Lists anywhere in a document -/

/-- The tree of a document has an entry for a command in a context: in the section of the context,
or at the top level if the section does not have the command. -/
inductive Config.Places (root : Node) (entries : List (Value × Value)) (context command : String)
    (entry : Node) : Prop where
  | inSection {commands : Node} (present : root.Holds context commands)
      (held : commands.Holds command entry)
  | atTop (held : root.Holds command entry) (unsectioned : command ∉ contexts)
      (missing : (sectionEntry entries context command).isNull = true)

/-- In the tree of a document that lists reactions, the command has its place, and its entry has the
reactions. -/
theorem Yaml.Listing.Reacts.places {listing : Listing} {names : List String} {context : String}
    (reacts : listing.Reacts names) (known : context ∈ Config.contexts)
    (own : listing.name ∉ Config.contexts) (value : Value) :
    Config.Places listing.tree [(.str listing.name, value)] context listing.name listing.entry ∧
      listing.entry.Holds "reactions" (listNode names) := by
  constructor
  · refine .atTop ?_ own (isNull_sectionEntry known own value)
    rw [reacts.tree_eq]
    exact @Node.Holds.last _ [] [] _ (List.forall_mem_nil _)
  · rw [reacts.entry_eq]
    exact @Node.Holds.last _ [(.scalar .str "comment", .scalar .str listing.remark)] [] _
      (List.forall_mem_nil _)

section Anywhere

variable {names : List String} {fuel : Nat} {root entry : Node} {entries : List (Value × Value)}
  {context command content : String}

/-- A list of names that is built at all is the list of their values. -/
theorem eq_of_build_listNode {value : Value} (known : ∀ name ∈ names, name ∈ reactionNames)
    (built : (listNode names).build fuel = .ok value) : value = .list (names.map nameValue) := by
  cases fuel with
  | zero => cases built
  | succ fuel =>
      cases names with
      | nil => exact (Except.ok.inj built).symm
      | cons name names =>
          cases fuel with
          | zero =>
              -- there is no fuel for the names
              rw [listNode, Node.build] at built
              simp only [Node.tag, Node.items?, List.map_cons] at built
              cases collected : collect (deeper ((plain name).build 0) ::
                  (names.map plain).map fun item => deeper (item.build 0)) with
              | error failure =>
                  rw [collected] at built
                  cases built
              | ok values =>
                  have items := Node.collect_eq_ok.mp collected
                  cases values <;> cases items
          | succ fuel =>
              rw [build_listNode known] at built
              exact (Except.ok.inj built).symm

theorem build_of_ofText (composed : Node.ofText content.toList = .ok (some root))
    (parsed : Config.ofText content = .ok (.map entries)) {word : String} {value : Node}
    (holds : root.Holds word value) : root.build root.height = .ok (.map entries) := by
  rw [Config.ofText, valueOf, composed] at parsed
  simp only [bind, Except.bind] at parsed
  cases built : root.build root.height with
  | error failure =>
      rw [built] at parsed
      cases parsed
  | ok whole =>
      obtain ⟨less, fields, rfl, -⟩ := holds.field_of_build built
      rw [built] at parsed
      cases parsed
      rfl

theorem exists_actionsFor (composed : Node.ofText content.toList = .ok (some root))
    (parsed : Config.ofText content = .ok (.map entries))
    (places : Config.Places root entries context command entry)
    (lists : entry.Holds "reactions" (listNode names))
    (known : ∀ name ∈ names, name ∈ reactionNames) :
    ∃ fields, Config.actionsFor (.map entries) context command = .ok (.map fields) ∧
      Value.field fields "reactions" = .list (names.map nameValue) := by
  have listed {fuel : Nat} {value : Value} (built : entry.build fuel = .ok value) :
      ∃ fields, value = .map fields ∧
        Value.field fields "reactions" = .list (names.map nameValue) := by
    obtain ⟨less, fields, rfl, list⟩ := lists.field_of_build built
    exact ⟨fields, rfl, eq_of_build_listNode known list⟩
  cases places with
  | inSection present held =>
      have whole := build_of_ofText composed parsed present
      obtain ⟨less, others, same, commands⟩ := present.field_of_build whole
      cases same
      obtain ⟨least, fields, sectioned, built⟩ := held.field_of_build commands
      obtain ⟨reactions, found, list⟩ := listed built
      have own : Config.sectionEntry entries context command = .map reactions := by
        rw [Config.sectionEntry, sectioned]
        exact found
      refine ⟨reactions, ?_, list⟩
      rw [Config.actionsFor_of_own (by rw [own]; rfl), own]
  | atTop held unsectioned missing =>
      have whole := build_of_ofText composed parsed held
      obtain ⟨less, others, same, built⟩ := held.field_of_build whole
      cases same
      obtain ⟨reactions, found, list⟩ := listed built
      refine ⟨reactions, ?_, list⟩
      rw [Config.actionsFor_of_flat missing, Config.flatEntry,
        if_neg (by simpa [List.contains_iff_mem] using unsectioned), found]
      cases reactions with
      | nil => cases list
      | cons reaction reactions => rfl

end Anywhere

/-! ## From the configuration to the requests -/

/-- The steps react to a comment with just these names: there is one call for each of them, in
order, and it has the name for its content. -/
structure SendsReactions (id : Value) (names : List String) (steps : List Step) : Prop where
  calls : reactionsSent steps = names.map (.addReaction id)
  contents : (reactionsSent steps).map Call.body =
    names.map fun name => some (Call.single "content" (.str name))

theorem sendsReactions_of_calls {id : Value} {names : List String} {steps : List Step}
    (calls : reactionsSent steps = names.map (.addReaction id)) :
    SendsReactions id names steps where
  calls := calls
  contents := by
    rw [calls, List.map_map]
    rfl

/-- What becomes of names of reactions that a configuration lists. They all arrive, except for the
one that loses its sign. -/
structure ReactsAsListed (names : List String) : Prop where
  /-- Every list that is not empty can be the words of a document in the usual layout. -/
  writable : names ≠ [] → ∀ listing : Listing, ∃ other : Listing,
    other.command = listing.command ∧ other.comment = listing.comment ∧
      other.layout = listing.layout ∧ other.words = names.map String.toList
  /-- Such a document configures its comment and the names as they are spoken. -/
  written : ∀ (listing : Listing) (context : String), listing.Reacts names →
    context ∈ Config.contexts → listing.name ∉ Config.contexts →
      ∃ config entry, Config.ofText listing.content = .ok config ∧
        Config.actionsFor config context listing.name = .ok entry ∧
        ActionSet.ofValue entry =
          .ok { comments := [listing.remark], reactions := names.map spoken }
  /-- So does an entry with this list in any other document, if the rest of the entry is fit for an
  action set. -/
  placed : ∀ (content context command : String) (root entry : Node)
    (entries : List (Value × Value)), Node.ofText content.toList = .ok (some root) →
      Config.ofText content = .ok (.map entries) →
      Config.Places root entries context command entry →
      entry.Holds "reactions" (listNode names) →
        ∃ fields, Config.actionsFor (.map entries) context command = .ok (.map fields) ∧
          (¬ ActionSet.IsMistake (.map fields) → ActionSet.IsLegible (.map fields) →
            ∃ actions, ActionSet.ofValue (.map fields) = .ok actions ∧
              actions.comments = ActionSet.displays fields "comment" ∧
              actions.reactions = names.map spoken)
  /-- The names are spoken as they were written if the one that loses its sign is not there. -/
  kept : names.map spoken = names ↔ "+1" ∉ names
  /-- A run that ends well sends one reaction for each of the other names, in order. -/
  ended : ∀ (invocation : Invocation) (actions : ActionSet) (client : Client) (server : Server)
    (earlier : List Request), actions.comments ≠ [] → actions.reactions = names.map spoken →
      ((invocation.apply client actions).run server earlier).1 = .ok () →
        ∃ id, SendsReactions id (names.filter (· ≠ "+1"))
          ((invocation.apply client actions).run server earlier).2
  /-- So does a run whose calls are answered, if its comment can be made from its template. -/
  answered : ∀ (invocation : Invocation) (actions : ActionSet) (client : Client) (server : Server)
    (earlier : List Request) (ids : Value → Prop), actions.comments ≠ [] →
      actions.reactions = names.map spoken →
      (∀ template ∈ actions.comments,
        ∃ text, Template.render template invocation.commentContext = .ok text) →
      (∃ id, ids id) → Task.AreAnswered client server ids (invocation.plan actions) →
        ∃ id, SendsReactions id (names.filter (· ≠ "+1"))
          ((invocation.apply client actions).run server earlier).2

/-- Every list of names of reactions can be written in a configuration, and is sent as listed. Only
a plain `+1` is taken for a number, and is left out. -/
theorem reactsAsListed_of_known {names : List String}
    (known : ∀ name ∈ names, name ∈ reactionNames) : ReactsAsListed names where
  writable filled listing := by
    refine ⟨{ listing with words := names.map String.toList, fit := ?_, filled := ?_ }, rfl, rfl,
      rfl, rfl⟩
    · intro word member
      obtain ⟨name, listed, rfl⟩ := List.mem_map.mp member
      exact isWord_reaction (known name listed)
    · exact fun empty => filled (List.map_eq_nil_iff.mp empty)
  written listing context reacts sectioned own :=
    ⟨_, _, reacts.ofText_content known, Listing.actionsFor_config sectioned own,
      Listing.ofValue_configured known⟩
  placed content context command root entry entries composed parsed places lists := by
    obtain ⟨fields, found, held⟩ := exists_actionsFor composed parsed places lists known
    refine ⟨fields, found, fun fit legible => ?_⟩
    obtain ⟨actions, made⟩ := ActionSet.exists_ofValue_iff.mpr ⟨fit, legible⟩
    refine ⟨actions, made, ?_, reactions_of_field known held made⟩
    rw [ActionSet.ofValue_map] at made
    obtain ⟨-, -, assembled⟩ := ActionSet.ofEntries_eq_ok_iff.mp made
    exact congrArg ActionSet.comments assembled
  kept := map_spoken_eq_self_iff
  ended invocation actions client server earlier commented listed ended := by
    obtain ⟨id, sent⟩ := Invocation.reacts_of_ended commented ended
    rw [listed, filter_map_spoken known] at sent
    exact ⟨id, sendsReactions_of_calls sent⟩
  answered invocation actions client server earlier ids commented listed renders given
      answered := by
    obtain ⟨comment, among⟩ := given
    have reacted : ∃ id, reactionsSent ((invocation.apply client actions).run server earlier).2 =
        (actions.reactions.filter reactionNames.contains).map (.addReaction id) :=
      Invocation.reacts_of_answered commented renders among answered
    obtain ⟨id, sent⟩ := reacted
    rw [listed, filter_map_spoken known] at sent
    exact ⟨id, sendsReactions_of_calls sent⟩

/-- A document with two hearts and a dislike. -/
def hearts : Listing where
  command := "greet".toList
  comment := "Hi".toList
  layout := .brackets
  words := ["heart", "-1", "heart"].map String.toList
  commandFits := by decide
  unsigned := by decide
  commentFits := by decide
  fit := by decide
  filled := by decide

/-- What the document configures. -/
def hearted : ActionSet := { comments := ["Hi"], reactions := ["heart", "-1", "heart"] }

theorem eq_int_of_match {outcome : Except Fault Value} {number : Int}
    (same : (match outcome with
      | .ok (.int other) => other == number
      | _ => false) = true) : outcome = .ok (.int number) := by
  split at same
  · rw [beq_iff_eq.mp same]
  · cases same

/-- A call that can be addressed is answered by the server that accepts everything. -/
theorem answers_acceptAll {client : Client} {call : Call}
    (addressed : (client.request call).toOption.isSome = true)
    (renews : call.newest (.int 9) (Text.encodeUtf8 "\x7b\"id\": 9\x7d".toList) = .ok (.int 9)) :
    client.Answers acceptAll (· = .int 9) call := by
  rintro earlier comment rfl
  cases made : client.request call with
  | error fault =>
      rw [made] at addressed
      cases addressed
  | ok request =>
      refine ⟨_, _, ?_, renews, rfl⟩
      rw [Client.ask, made]
      rfl

theorem areAnswered_hearted :
    Task.AreAnswered sampleClient acceptAll (· = .int 9) (greeting.plan hearted) := by
  have plan : greeting.plan hearted = [⟨.ask (.unlock (.int 7)), none⟩,
    ⟨.ask (.createComment (.int 7) "Hi"), some .comment⟩,
    ⟨.react "heart", some (.reaction "heart")⟩, ⟨.react "-1", some (.reaction "-1")⟩,
    ⟨.react "heart", some (.reaction "heart")⟩,
    ⟨.ask (.lock (.int 7) (.str "spam")), none⟩] := rfl
  have reacts (name : String)
      (addressed : (sampleClient.request (.addReaction (.int 9) name)).toOption.isSome = true) :
      Work.IsAnswered sampleClient acceptAll (· = .int 9) (.react name) := by
    rintro comment rfl
    exact answers_acceptAll addressed rfl
  have heart := reacts "heart" (by decide)
  have dislike := reacts "-1" (by decide)
  have unlocked : sampleClient.Answers acceptAll (· = .int 9) (.unlock (.int 7)) :=
    answers_acceptAll (by decide) rfl
  have created : sampleClient.Answers acceptAll (· = .int 9) (.createComment (.int 7) "Hi") :=
    answers_acceptAll (by decide) (eq_int_of_match (by decide +kernel))
  have locked : sampleClient.Answers acceptAll (· = .int 9) (.lock (.int 7) (.str "spam")) :=
    answers_acceptAll (by decide) rfl
  rw [plan, Task.AreAnswered]
  simp only [List.forall_mem_cons]
  exact ⟨unlocked, created, heart, dislike, heart, locked, List.forall_mem_nil _⟩

theorem reacts_hearts : hearts.Reacts ["heart", "-1", "heart"] where
  words := rfl
  name := by decide
  remark := by decide

/-- The document is read, and all of its reactions are sent. -/
theorem reactsAsListed_of_known_hearts :
    (∀ name ∈ ["heart", "-1", "heart"], name ∈ reactionNames) ∧
      (∃ config entry,
        Config.ofText "greet:\n  comment: Hi\n  reactions: [heart, -1, heart]\n" = .ok config ∧
          Config.actionsFor config "issues" "greet" = .ok entry ∧
          ActionSet.ofValue entry = .ok hearted) ∧
      (∃ entries fields, Config.Places hearts.tree entries "issues" "greet" hearts.entry ∧
        Config.actionsFor (.map entries) "issues" "greet" = .ok (.map fields)) ∧
      ((greeting.apply sampleClient hearted).run acceptAll []).1 = .ok () ∧
      ∃ id, SendsReactions id ["heart", "-1", "heart"]
        ((greeting.apply sampleClient hearted).run acceptAll []).2 := by
  have known : ∀ name ∈ ["heart", "-1", "heart"], name ∈ reactionNames := by decide
  have listed := reactsAsListed_of_known known
  have own : hearts.name ∉ Config.contexts := by decide
  have content : hearts.content = "greet:\n  comment: Hi\n  reactions: [heart, -1, heart]\n" := by
    decide
  have issues : "issues" ∈ Config.contexts := by decide
  have written := listed.written hearts "issues" reacts_hearts issues own
  rw [content] at written
  obtain ⟨places, holds⟩ := reacts_hearts.places issues own _
  obtain ⟨fields, found, -⟩ := listed.placed _ _ _ _ _ _ Listing.ofText_toList_content
    (reacts_hearts.ofText_content known) places holds
  have renders : ∀ template ∈ hearted.comments,
      ∃ text, Template.render template greeting.commentContext = .ok text :=
    List.forall_mem_singleton.mpr ⟨"Hi", rfl⟩
  have sent := listed.answered greeting hearted sampleClient acceptAll [] (· = .int 9)
    (by decide) rfl renders ⟨.int 9, rfl⟩ areAnswered_hearted
  exact ⟨known, written, ⟨_, fields, places, found⟩, by decide +kernel, sent⟩

/-- A document with a like. -/
def like : Listing where
  command := "c".toList
  comment := "hi".toList
  layout := .brackets
  words := ["+1"].map String.toList
  commandFits := by decide
  unsigned := by decide
  commentFits := by decide
  fit := by decide
  filled := by decide

theorem reacts_like : like.Reacts ["+1"] where
  words := rfl
  name := by decide
  remark := by decide

/-- A plain `+1` is the name of a reaction, but it is configured as another text, and a run that
ends well sends no reaction for it. -/
theorem like_is_lost :
    "+1" ∈ reactionNames ∧
      (∃ config entry,
        Config.ofText "c:\n  comment: hi\n  reactions: [+1]\n" = .ok config ∧
          Config.actionsFor config "issues" "c" = .ok entry ∧
          ActionSet.ofValue entry = .ok { comments := ["hi"], reactions := ["1"] }) ∧
      ((greeting.apply sampleClient { comments := ["hi"], reactions := ["1"] }).run
        acceptAll []).1 = .ok () ∧
      reactionsSent ((greeting.apply sampleClient { comments := ["hi"], reactions := ["1"] }).run
        acceptAll []).2 = [] := by
  have known : ∀ name ∈ ["+1"], name ∈ reactionNames := by decide
  have content : like.content = "c:\n  comment: hi\n  reactions: [+1]\n" := by decide
  have parsed := reacts_like.ofText_content known
  rw [content] at parsed
  have ended : ((greeting.apply sampleClient { comments := ["hi"], reactions := ["1"] }).run
      acceptAll []).1 = .ok () := by
    decide +kernel
  obtain ⟨id, sent⟩ := Invocation.reacts_of_ended (by decide) ended
  have found := @Listing.actionsFor_config like ["+1"] "issues" (by decide) (by decide)
  exact ⟨by decide, ⟨_, _, parsed, found, Listing.ofValue_configured known⟩, ended, sent⟩

end SlashBot

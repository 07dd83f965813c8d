import SlashBot.Proofs.Composing
import SlashBot.Proofs.Lines

/-!
# Documents that list words

A document that configures one command with a comment and a list of reactions, as it is usually
written: the list in brackets, or one item a line. Its tokens are found, and composed into its tree.
-/

namespace SlashBot.Yaml

/-- How a list is laid out behind its key. -/
inductive Layout where
  | brackets
  | lines (width : Nat) (deep : 2 < width)

/-- A list of words in its layout. -/
def Layout.write : (layout : Layout) → (words : List (List Char)) → List Char
  | brackets, [] => [' ', '[', ']', '\n']
  | brackets, word :: words => ' ' :: '[' :: (word ++ bracketed words)
  | lines width _, words => '\n' :: itemLines width words

/-- The tokens of a list in its layout. -/
def Layout.tokens : (layout : Layout) → (words : List (List Char)) → List Token
  | brackets, [] => [.flowSequenceStart, .flowSequenceEnd]
  | brackets, word :: words =>
      .flowSequenceStart :: .scalar (String.ofList word) true :: bracketedTokens words ++
        [.flowSequenceEnd]
  | lines _ _, words => .blockSequenceStart :: itemTokens words ++ [.blockEnd]

/-- A command with a comment and the reactions to it, all written as plain words. -/
structure Listing where
  command : List Char
  comment : List Char
  layout : Layout
  words : List (List Char)
  commandFits : IsWord command
  unsigned : command.head? ≠ some '-'
  commentFits : IsWord comment
  fit : ∀ word ∈ words, IsWord word
  filled : words ≠ []

namespace Listing

variable (listing : Listing)

/-- The name of the command. -/
def name : String := String.ofList listing.command

/-- The comment that the command makes. -/
def remark : String := String.ofList listing.comment

/-- The lines of the document. -/
def text : List Char :=
  listing.command ++ ':' :: '\n' :: (List.replicate 2 ' ' ++ ("comment".toList ++ ':' :: ' ' ::
    (listing.comment ++ '\n' :: (List.replicate 2 ' ' ++ ("reactions".toList ++ ':' ::
      listing.layout.write listing.words)))))

/-- The document as a text. -/
def content : String := String.ofList listing.text

/-- The tokens of the document. -/
def tokens : List Token :=
  [.blockMappingStart, .key, .scalar listing.name true, .value, .blockMappingStart, .key,
    .scalar "comment" true, .value, .scalar listing.remark true, .key, .scalar "reactions" true,
    .value] ++
  (listing.layout.tokens listing.words ++ [.blockEnd, .blockEnd, .streamEnd])

open Scan

theorem isWord_comment : IsWord "comment".toList := by decide

theorem isWord_reactions : IsWord "reactions".toList := by decide

/-- The list behind its key, up to the end of the document. -/
theorem gives_list (layout : Layout) {words : List (List Char)}
    (fit : ∀ word ∈ words, IsWord word) (filled : words ≠ []) (index line column : Nat)
    (indented : 2 ≤ column) (reversed : List Token) :
    (found ⟨layout.write words, index, line, column⟩ reversed 2 [0, -1] 0 false []).Gives
      (reversed.reverse ++ (layout.tokens words ++ [.blockEnd, .blockEnd, .streamEnd])) := by
  obtain ⟨first, others, rfl⟩ := List.exists_cons_of_ne_nil filled
  obtain ⟨firstFits, othersFit⟩ := List.forall_mem_cons.mp fit
  cases layout with
  | brackets =>
      rw [Layout.write]
      refine leads_space (begins_cons (by decide) (by decide) rfl _) _ ?_
      refine leads_bracket (by omega) _ ?_
      refine gives_bracketed others firstFits othersFit (Nat.succ_pos _) fun index' line' => ?_
      have ended := @gives_end_of_entry index' line' (.flowSequenceEnd ::
        ((bracketedTokens others).reverse ++ .scalar (String.ofList first) true ::
          .flowSequenceStart :: reversed))
      simpa [Layout.tokens] using ended
  | lines width deep =>
      have begins : Begins ('-' :: ' ' :: (first ++ '\n' :: itemLines width others)) :=
        begins_cons (by decide) (by decide) rfl _
      rw [Layout.write, itemLines]
      refine leads_newline begins width rfl _ ?_
      refine leads_hyphen_open rfl (by omega) (Int.ofNat_lt.mpr deep) _ ?_
      refine gives_items others firstFits othersFit (by omega) fun index' line' => ?_
      have ended := @gives_end_of_list index' line' ((itemTokens others).reverse ++
        .scalar (String.ofList first) true :: .blockEntry :: .blockSequenceStart :: reversed) width
        deep
      simpa [Layout.tokens, itemTokens] using ended

/-- What comes behind a key that has a list for its value. -/
theorem exists_write (layout : Layout) (words : List (List Char)) :
    ∃ gap rest, layout.write words = gap :: rest ∧ isGap gap = true := by
  cases layout with
  | brackets => cases words <;> exact ⟨_, _, rfl, rfl⟩
  | lines width deep => exact ⟨_, _, rfl, rfl⟩

theorem gives_text : (Scan.start listing.text).Gives listing.tokens := by
  obtain ⟨gap, rest, written, isGap⟩ := exists_write listing.layout listing.words
  refine leads_key_open listing.commandFits (.inr listing.unsigned) rfl (by decide) _ ?_
  refine leads_newline (isWord_comment.begins _) 2 rfl _ ?_
  refine leads_key_open isWord_comment (.inl (by decide)) rfl (Int.ofNat_lt.mpr Nat.two_pos) _ ?_
  refine leads_space (listing.commentFits.begins _) _ ?_
  refine leads_word_break false listing.commentFits (.inl (by omega)) (by omega)
    (isWord_reactions.begins _) (.inl (by decide)) (by decide) _ ?_
  rw [written]
  refine leads_key_next isWord_reactions (.inl (by decide)) isGap _ ?_
  rw [← written]
  exact gives_list listing.layout listing.fit listing.filled _ _ _ (by omega) _

theorem isDocumentChar_of_isWordChar {c : Char} (fits : isWordChar c = true) :
    isDocumentChar c = true := by
  have code := toNat_of_isWordChar fits
  have printable : 32 ≤ c.toNat ∧ c.toNat ≤ 126 := by omega
  simp [isDocumentChar, printable]

/-- All characters of a text can stand in a document. -/
def Printable (text : List Char) : Prop :=
  ∀ c ∈ text, isDocumentChar c = true

theorem printable_append {front rest : List Char} :
    Printable (front ++ rest) ↔ Printable front ∧ Printable rest :=
  List.forall_mem_append

theorem printable_cons {c : Char} {rest : List Char} :
    Printable (c :: rest) ↔ isDocumentChar c = true ∧ Printable rest :=
  List.forall_mem_cons

theorem printable_nil : Printable [] := List.forall_mem_nil _

theorem printable_spaces (count : Nat) : Printable (List.replicate count ' ') := by
  intro c member
  rw [List.eq_of_mem_replicate member]
  decide

theorem printable_of_isWord {word : List Char} (fits : IsWord word) : Printable word :=
  fun c member => isDocumentChar_of_isWordChar (fits.chars c member)

theorem printable_bracketed {words : List (List Char)} (fit : ∀ word ∈ words, IsWord word) :
    Printable (bracketed words) := by
  induction words with
  | nil => exact printable_cons.mpr ⟨by decide, printable_cons.mpr ⟨by decide, printable_nil⟩⟩
  | cons word words ih =>
      obtain ⟨first, others⟩ := List.forall_mem_cons.mp fit
      simp only [bracketed, printable_cons, printable_append]
      exact ⟨by decide, by decide, printable_of_isWord first, ih others⟩

theorem printable_itemLines (width : Nat) {words : List (List Char)}
    (fit : ∀ word ∈ words, IsWord word) : Printable (itemLines width words) := by
  induction words with
  | nil => exact printable_nil
  | cons word words ih =>
      obtain ⟨first, others⟩ := List.forall_mem_cons.mp fit
      simp only [itemLines, printable_cons, printable_append]
      exact ⟨printable_spaces width, by decide, by decide, printable_of_isWord first, by decide,
        ih others⟩

theorem printable_write (layout : Layout) {words : List (List Char)}
    (fit : ∀ word ∈ words, IsWord word) : Printable (layout.write words) := by
  cases layout with
  | brackets =>
      cases words with
      | nil => exact List.all_eq_true.mp (by decide)
      | cons word words =>
          obtain ⟨first, others⟩ := List.forall_mem_cons.mp fit
          simp only [Layout.write, printable_cons, printable_append]
          exact ⟨by decide, by decide, printable_of_isWord first, printable_bracketed others⟩
  | lines width deep => exact printable_cons.mpr ⟨by decide, printable_itemLines width fit⟩

theorem printable_text : Printable listing.text := by
  simp only [text, printable_cons, printable_append]
  exact ⟨printable_of_isWord listing.commandFits, by decide, by decide, printable_spaces 2,
    printable_of_isWord isWord_comment, by decide, by decide,
    printable_of_isWord listing.commentFits, by decide, printable_spaces 2,
    printable_of_isWord isWord_reactions, by decide, printable_write listing.layout listing.fit⟩

/-- The document is scanned to its end, and gives its tokens. -/
theorem tokensOf_text : tokensOf listing.text = ⟨listing.tokens, .malformedConfig⟩ := by
  have printable : listing.text.all isDocumentChar = true :=
    List.all_eq_true.mpr listing.printable_text
  have unmarked : ((Scan.start listing.text).cursor.current.toNat == 0xfeff) = false := by
    obtain ⟨c, rest, same, -⟩ := listing.commandFits.starts
    have first : isWordChar c = true := listing.commandFits.chars c (same ▸ .head _)
    have current : (Scan.start listing.text).cursor.current = c := by
      rw [text, same]
      rfl
    rw [current]
    exact toNat_beq_of_isWordChar first _ (by decide)
  have gives := listing.gives_text.run_eq (listing.text.length + 2) (by
    show listing.text.length < _
    omega)
  simp only [tokensOf, printable, unmarked, if_true, Bool.false_eq_true, if_false]
  exact gives

end Listing

/-! ## The tree -/

namespace Builder

/-- A builder takes tokens off the front of those to come, and gives a result. No names are given
and no handles are defined on the way. -/
def Composes {α : Type} (builder : Builder α) (tokens : List Token) (result : α)
    (rest : List Token) : Prop :=
  builder ⟨⟨tokens, .malformedConfig⟩, usualHandles, [], []⟩ =
    .ok (result, ⟨⟨rest, .malformedConfig⟩, usualHandles, [], []⟩)

variable {α β : Type} {builder : Builder α} {next : α → Builder β} {tokens middle rest : List Token}
  {result : α} {last : β}

theorem Composes.bind (first : Composes builder tokens result middle)
    (second : Composes (next result) middle last rest) :
    Composes (builder >>= next) tokens last rest := by
  rw [Composes, bind_apply, first]
  exact second

theorem composes_pure (result : α) : Composes (pure result) tokens result tokens := rfl

theorem composes_peek (token : Token) : Composes peek (token :: rest) token (token :: rest) := rfl

theorem composes_skip (token : Token) : Composes skip (token :: rest) () rest := rfl

/-- A token that ends something is taken off, and what was found until then is given. -/
theorem composes_end (token : Token) (result : α) :
    Composes (do skip; return result) (token :: rest) result rest :=
  (composes_skip token).bind (composes_pure result)

/-- The plain scalar of a word. -/
def plain (word : String) : Node := .scalar (.ofPlain word) word

variable {fuel : Nat} {place : Place}

theorem composes_buildNode_word (word : String) :
    Composes (buildNode place (fuel + 1)) (.scalar word true :: rest) (plain word) rest := by
  rw [buildNode]
  rfl

theorem composes_buildOptional {token : Token} {closing : List Token} {node : Node}
    (present : closing.contains token = false)
    (built : Composes (buildNode place fuel) (token :: tokens) node rest) :
    Composes (buildOptional place closing (fuel + 1)) (token :: tokens) node rest := by
  rw [buildOptional]
  refine (composes_peek token).bind ?_
  rw [if_neg (by rw [present]; exact Bool.false_ne_true)]
  exact built

theorem composes_buildNode_brackets {items : List Node}
    (listed : Composes (buildFlowItems true [] fuel) tokens items rest) :
    Composes (buildNode place (fuel + 1)) (.flowSequenceStart :: tokens) (.sequence .seq items)
      rest := by
  rw [buildNode]
  have built : Composes (do return Node.sequence .seq (← buildFlowItems true [] fuel)) tokens
    (.sequence .seq items) rest := listed.bind (composes_pure _)
  exact built

/-- The nodes of some words. -/
def plainNodes (words : List (List Char)) : List Node :=
  words.map fun word => plain (String.ofList word)

/-- The words of a list in brackets behind the first one. -/
theorem composes_buildFlowItems (words : List (List Char)) (reversed : List Node) (fuel : Nat)
    (enough : words.length < fuel) :
    Composes (buildFlowItems false reversed fuel)
      (bracketedTokens words ++ .flowSequenceEnd :: rest) (reversed.reverse ++ plainNodes words)
      rest := by
  induction words generalizing reversed fuel with
  | nil =>
      obtain ⟨fuel, rfl⟩ := Nat.exists_eq_succ_of_ne_zero (by omega : fuel ≠ 0)
      rw [buildFlowItems, plainNodes, List.map_nil, List.append_nil]
      exact composes_end _ reversed.reverse
  | cons word words ih =>
      rw [List.length_cons] at enough
      obtain ⟨fuel, rfl⟩ := Nat.exists_eq_succ_of_ne_zero (by omega : fuel ≠ 0)
      obtain ⟨less, rfl⟩ := Nat.exists_eq_succ_of_ne_zero (by omega : fuel ≠ 0)
      have others := ih (plain (String.ofList word) :: reversed) (less + 1) (by omega)
      have item : Composes
          (do
            let item ← buildNode .flow (less + 1)
            buildFlowItems false (item :: reversed) (less + 1))
          (.scalar (String.ofList word) true :: (bracketedTokens words ++ .flowSequenceEnd :: rest))
          ((plain (String.ofList word) :: reversed).reverse ++ plainNodes words) rest :=
        (composes_buildNode_word _).bind others
      rw [List.reverse_cons, List.append_assoc] at item
      rw [buildFlowItems]
      exact item

theorem composes_list_brackets (word : List Char) (words : List (List Char)) (fuel : Nat)
    (enough : words.length + 1 < fuel) :
    Composes (buildNode place (fuel + 1))
      (Layout.brackets.tokens (word :: words) ++ rest) (.sequence .seq (plainNodes (word :: words)))
      rest := by
  obtain ⟨fuel, rfl⟩ := Nat.exists_eq_succ_of_ne_zero (by omega : fuel ≠ 0)
  obtain ⟨less, rfl⟩ := Nat.exists_eq_succ_of_ne_zero (by omega : fuel ≠ 0)
  have first : Composes
      (do
        let item ← buildNode .flow (less + 1)
        buildFlowItems false (item :: []) (less + 1))
      (.scalar (String.ofList word) true :: (bracketedTokens words ++ .flowSequenceEnd :: rest))
      (plainNodes (word :: words)) rest :=
    (composes_buildNode_word _).bind
      (composes_buildFlowItems words [plain (String.ofList word)] (less + 1) (by omega))
  have listed : Composes (buildFlowItems true [] (less + 1 + 1))
      (.scalar (String.ofList word) true :: (bracketedTokens words ++ .flowSequenceEnd :: rest))
      (plainNodes (word :: words)) rest := by
    rw [buildFlowItems]
    exact first
  have written : Layout.brackets.tokens (word :: words) ++ rest =
      .flowSequenceStart :: .scalar (String.ofList word) true ::
        (bracketedTokens words ++ .flowSequenceEnd :: rest) := by
    simp [Layout.tokens]
  rw [written]
  exact composes_buildNode_brackets listed

/-- The items of a list with one a line. -/
theorem composes_buildItems (words : List (List Char)) (reversed : List Node) (fuel : Nat)
    (enough : words.length + 1 < fuel) :
    Composes (buildItems reversed fuel) (itemTokens words ++ .blockEnd :: rest)
      (reversed.reverse ++ plainNodes words) rest := by
  induction words generalizing reversed fuel with
  | nil =>
      obtain ⟨fuel, rfl⟩ := Nat.exists_eq_succ_of_ne_zero (by omega : fuel ≠ 0)
      rw [buildItems, plainNodes, List.map_nil, List.append_nil]
      exact composes_end _ reversed.reverse
  | cons word words ih =>
      rw [List.length_cons] at enough
      obtain ⟨fuel, rfl⟩ := Nat.exists_eq_succ_of_ne_zero (by omega : fuel ≠ 0)
      obtain ⟨less, rfl⟩ := Nat.exists_eq_succ_of_ne_zero (by omega : fuel ≠ 0)
      obtain ⟨least, rfl⟩ := Nat.exists_eq_succ_of_ne_zero (by omega : less ≠ 0)
      have optional : Composes (buildOptional .block [.blockEntry, .blockEnd] (least + 1 + 1))
          (.scalar (String.ofList word) true :: (itemTokens words ++ .blockEnd :: rest))
          (plain (String.ofList word)) (itemTokens words ++ .blockEnd :: rest) :=
        composes_buildOptional rfl (composes_buildNode_word _)
      have item : Composes
          (do
            skip
            let item ← buildOptional .block [.blockEntry, .blockEnd] (least + 1 + 1)
            buildItems (item :: reversed) (least + 1 + 1))
          (itemTokens (word :: words) ++ .blockEnd :: rest)
          ((plain (String.ofList word) :: reversed).reverse ++ plainNodes words) rest :=
        (composes_skip _).bind (optional.bind
          (ih (plain (String.ofList word) :: reversed) (least + 1 + 1) (by omega)))
      rw [List.reverse_cons, List.append_assoc] at item
      rw [buildItems]
      exact item

theorem composes_list_lines (width : Nat) (deep : 2 < width) (words : List (List Char)) (fuel : Nat)
    (enough : words.length + 1 < fuel) (away : place ≠ .flow) :
    Composes (buildNode place (fuel + 1)) ((Layout.lines width deep).tokens words ++ rest)
      (.sequence .seq (plainNodes words)) rest := by
  have listed : Composes (buildItems [] fuel) (itemTokens words ++ .blockEnd :: rest) _ rest :=
    composes_buildItems words [] fuel enough
  have built : Composes (do skip; return Node.sequence .seq (← buildItems [] fuel))
      (.blockSequenceStart :: (itemTokens words ++ .blockEnd :: rest))
      (.sequence .seq (plainNodes words)) rest :=
    (composes_skip _).bind (listed.bind (composes_pure _))
  have written : (Layout.lines width deep).tokens words ++ rest =
      .blockSequenceStart :: (itemTokens words ++ .blockEnd :: rest) := by
    simp [Layout.tokens]
  rw [written, buildNode]
  cases place with
  | flow => exact absurd rfl away
  | block => exact built
  | blockOrBareItems => exact built

theorem composes_buildPairs_nil (reversed : List (Node × Node)) :
    Composes (buildPairs reversed (fuel + 1)) (.blockEnd :: rest) reversed.reverse rest := by
  rw [buildPairs]
  exact composes_end _ reversed.reverse

/-- A pair with a word for its key. -/
theorem composes_buildPairs_cons {value : Node} {pairs reversed : List (Node × Node)}
    (word : String)
    (valued : Composes (buildOptional .blockOrBareItems [.key, .value, .blockEnd] (fuel + 1)) tokens
      value middle)
    (others :
      Composes (buildPairs ((plain word, value) :: reversed) (fuel + 2)) middle pairs rest) :
    Composes (buildPairs reversed (fuel + 3)) (.key :: .scalar word true :: .value :: tokens) pairs
      rest := by
  have keyed : Composes (buildOptional .blockOrBareItems [.key, .value, .blockEnd] (fuel + 2))
      (.scalar word true :: .value :: tokens) (plain word) (.value :: tokens) :=
    composes_buildOptional rfl (composes_buildNode_word word)
  have behind : Composes (buildPairValue (fuel + 2)) (.value :: tokens) value middle := by
    have skipped : Composes
        (do
          skip
          buildOptional .blockOrBareItems [.key, .value, .blockEnd] (fuel + 1))
        (.value :: tokens) value middle := (composes_skip _).bind valued
    rw [buildPairValue]
    exact skipped
  have pair : Composes
      (do
        skip
        let key ← buildOptional .blockOrBareItems [.key, .value, .blockEnd] (fuel + 2)
        let value ← buildPairValue (fuel + 2)
        buildPairs ((key, value) :: reversed) (fuel + 2))
      (.key :: .scalar word true :: .value :: tokens) pairs rest :=
    (composes_skip _).bind (keyed.bind (behind.bind others))
  rw [buildPairs]
  exact pair

theorem composes_buildNode_mapping {pairs : List (Node × Node)} (away : place ≠ .flow)
    (paired : Composes (buildPairs [] fuel) tokens pairs rest) :
    Composes (buildNode place (fuel + 1)) (.blockMappingStart :: tokens) (.mapping .map pairs)
      rest := by
  have built : Composes (do skip; return Node.mapping .map (← buildPairs [] fuel))
      (.blockMappingStart :: tokens) (.mapping .map pairs) rest :=
    (composes_skip _).bind (paired.bind (composes_pure _))
  rw [buildNode]
  cases place with
  | flow => exact absurd rfl away
  | block => exact built
  | blockOrBareItems => exact built

theorem composes_list (layout : Layout) {words : List (List Char)} (filled : words ≠ [])
    (enough : words.length + 1 < fuel) (away : place ≠ .flow) :
    Composes (buildNode place (fuel + 1)) (layout.tokens words ++ rest)
      (.sequence .seq (plainNodes words)) rest := by
  obtain ⟨first, others, rfl⟩ := List.exists_cons_of_ne_nil filled
  rw [List.length_cons] at enough
  cases layout with
  | brackets => exact composes_list_brackets first others fuel (by omega)
  | lines width deep => exact composes_list_lines width deep _ fuel enough away

/-- What a list starts with does not end the value of a pair. -/
theorem exists_tokens (layout : Layout) (words : List (List Char)) :
    ∃ token others, layout.tokens words = token :: others ∧
      [Token.key, .value, .blockEnd].contains token = false := by
  cases layout with
  | brackets => cases words <;> exact ⟨_, _, rfl, rfl⟩
  | lines width deep => exact ⟨_, _, rfl, rfl⟩

theorem composes_optional_list (layout : Layout) {words : List (List Char)} (filled : words ≠ [])
    (enough : words.length + 1 < fuel) :
    Composes (buildOptional .blockOrBareItems [.key, .value, .blockEnd] (fuel + 2))
      (layout.tokens words ++ rest) (.sequence .seq (plainNodes words)) rest := by
  obtain ⟨token, others, same, present⟩ := exists_tokens layout words
  have node :
      Composes (buildNode .blockOrBareItems (fuel + 1)) (layout.tokens words ++ rest) _ rest :=
    composes_list layout filled enough (by decide)
  rw [same] at node ⊢
  exact composes_buildOptional present node

end Builder

namespace Listing

open Builder

variable (listing : Listing)

/-- The entry of the command in the tree. -/
def entry : Node :=
  .mapping .map [(plain "comment", plain listing.remark),
    (plain "reactions", .sequence .seq (plainNodes listing.words))]

/-- The tree of the document. -/
def tree : Node :=
  .mapping .map [(plain listing.name, listing.entry)]

theorem composes_entry (fuel : Nat) (enough : listing.words.length + 1 < fuel) (rest : List Token) :
    Composes (buildNode .blockOrBareItems (fuel + 6))
      (.blockMappingStart :: .key :: .scalar "comment" true :: .value ::
        .scalar listing.remark true :: .key :: .scalar "reactions" true :: .value ::
          (listing.layout.tokens listing.words ++ .blockEnd :: rest)) listing.entry rest := by
  have comment : Composes (buildOptional .blockOrBareItems [.key, .value, .blockEnd] (fuel + 3))
      (.scalar listing.remark true :: .key :: .scalar "reactions" true :: .value ::
        (listing.layout.tokens listing.words ++ .blockEnd :: rest))
      (plain listing.remark) _ :=
    composes_buildOptional rfl (composes_buildNode_word _)
  refine composes_buildNode_mapping (by decide) ?_
  refine composes_buildPairs_cons "comment" comment ?_
  refine composes_buildPairs_cons "reactions" ?_ (composes_buildPairs_nil _)
  exact composes_optional_list listing.layout listing.filled enough

theorem composes_tree (fuel : Nat) (enough : listing.words.length + 1 < fuel) :
    Composes (buildNode .block (fuel + 10)) listing.tokens listing.tree [.streamEnd] := by
  have entry := listing.composes_entry fuel enough [.blockEnd, .streamEnd]
  refine composes_buildNode_mapping (by decide) ?_
  refine composes_buildPairs_cons listing.name ?_ (composes_buildPairs_nil _)
  exact composes_buildOptional rfl entry

theorem length_le_tokens (layout : Layout) (words : List (List Char)) :
    words.length ≤ (layout.tokens words).length := by
  have paired (first : Token) (words : List (List Char)) :
      (words.flatMap fun word => [first, .scalar (String.ofList word) true]).length =
        2 * words.length := by
    simp [List.length_flatMap, Nat.mul_comm]
  cases layout with
  | brackets =>
      cases words with
      | nil => exact Nat.zero_le _
      | cons word words =>
          simp [Layout.tokens, bracketedTokens, paired]
          omega
  | lines width deep =>
      simp [Layout.tokens, itemTokens, paired]
      omega

theorem composes_buildDocument :
    Composes buildDocument listing.tokens (some listing.tree) [.streamEnd] := by
  have enough := length_le_tokens listing.layout listing.words
  have all : listing.tokens.length = 12 + ((listing.layout.tokens listing.words).length + 3) := by
    simp [tokens]
    omega
  obtain ⟨fuel, supply⟩ : ∃ fuel, 4 * listing.tokens.length + 8 = fuel + 10 :=
    ⟨4 * listing.tokens.length + 8 - 10, by omega⟩
  have node := listing.composes_tree fuel (by omega)
  have ends : Composes (skipDocumentEnds (fuel + 10)) [.streamEnd] () [.streamEnd] := by
    rw [skipDocumentEnds]
    rfl
  have whole : Composes
      (do
        let node ← buildNode .block (fuel + 10)
        skipDocumentEnds (fuel + 10)
        if (← peek) == .streamEnd then return some node
        else
          let _ ← buildDirectives false [] (fuel + 10)
          expect .documentStart
          refuse)
      listing.tokens (some listing.tree) [.streamEnd] :=
    node.bind (ends.bind ((composes_peek .streamEnd).bind (composes_pure _)))
  have counted : Composes remaining listing.tokens listing.tokens listing.tokens := rfl
  rw [← supply] at whole
  rw [buildDocument]
  exact counted.bind ((composes_peek .blockMappingStart).bind whole)

/-- The tokens are composed into the tree. -/
theorem ofText_text : Node.ofText listing.text = .ok (some listing.tree) := by
  have composed := listing.composes_buildDocument
  rw [Node.ofText, tokensOf_text]
  simp only [StateT.run]
  rw [Composes] at composed
  rw [composed]
  rfl

end Listing

end SlashBot.Yaml

import SlashBot.Proofs.Constructing

/-!
# What a mapping holds under a word

A mapping of a document becomes a map, and what it holds under a word is built from the last of its
own pairs with this word for a key, whatever merge keys bring in and whatever stands before.
-/

namespace SlashBot

namespace Value

variable {key value : Value} {word : String} {entries pairs : List (Value × Value)}

/-! ## Maps with a text key -/

theorem str_sameKey_str (text word : String) :
    (Value.str text).sameKey (.str word) = (text == word) := rfl

theorem sameKey_str : key.sameKey (.str word) = true ↔ key = .str word := by
  cases key with
  | str text => rw [str_sameKey_str, beq_iff_eq, str.injEq]
  | float number => cases number <;> exact iff_of_false Bool.false_ne_true Value.noConfusion
  | _ => exact iff_of_false Bool.false_ne_true Value.noConfusion

theorem str_sameKey : (Value.str word).sameKey key = true ↔ key = .str word := by
  cases key with
  | str text => rw [str_sameKey_str, beq_iff_eq, str.injEq, eq_comm]
  | _ => exact iff_of_false Bool.false_ne_true Value.noConfusion

theorem field?_cons (key value : Value) (entries : List (Value × Value)) (word : String) :
    field? ((key, value) :: entries) word =
      if key.sameKey (.str word) then some value else field? entries word := by
  cases key with
  | float number => cases number <;> rfl
  | _ => rfl

theorem field?_put_self (word : String) (value : Value) (entries : List (Value × Value)) :
    field? (put (.str word) value entries) word = some value := by
  induction entries with
  | nil => simp [put, field?]
  | cons entry entries ih =>
      rcases entry with ⟨present, old⟩
      rw [put]
      split
      · rename_i same
        rw [field?_cons, if_pos same]
      · rename_i other
        rw [field?_cons, if_neg other, ih]

/-- Putting something under another key leaves what is held under a word. -/
theorem field?_put_of_ne (other : key ≠ .str word) (value : Value)
    (entries : List (Value × Value)) :
    field? (put key value entries) word = field? entries word := by
  have apart : key.sameKey (.str word) ≠ true := fun same => other (sameKey_str.1 same)
  induction entries with
  | nil => rw [put, field?_cons, if_neg apart]
  | cons entry entries ih =>
      rcases entry with ⟨present, old⟩
      rw [put]
      split
      · rename_i same
        have unlike : present.sameKey (.str word) ≠ true := by
          intro named
          rw [sameKey_str.1 named] at same
          exact other (str_sameKey.1 same)
        rw [field?_cons, field?_cons, if_neg unlike, if_neg unlike]
      · rw [field?_cons, field?_cons, ih]

theorem entriesOf_eq (pairs : List (Value × Value)) :
    entriesOf pairs = pairs.foldl (fun entries pair => put pair.1 pair.2 entries) [] := rfl

/-- What is put last under a word is what is held under it. -/
theorem field_entriesOf {front back : List (Value × Value)}
    (last : ∀ pair ∈ back, pair.1 ≠ .str word) :
    field (entriesOf (front ++ (.str word, value) :: back)) word = value := by
  have later (entries : List (Value × Value)) :
      field? (back.foldl (fun entries pair => put pair.1 pair.2 entries) entries) word =
        field? entries word := by
    induction back generalizing entries with
    | nil => rfl
    | cons pair back ih =>
        obtain ⟨first, others⟩ := List.forall_mem_cons.mp last
        rw [List.foldl_cons, ih others, field?_put_of_ne first]
  rw [field, entriesOf_eq, List.foldl_append, List.foldl_cons, later, field?_put_self]
  rfl

end Value

namespace Yaml

variable {text word : String}

/-! ## Text keys -/

theorem map_ne_ok {ε α : Type} {outcome : Except ε α} {image : α → Value} {value : Value}
    (apart : ∀ result, image result ≠ value) : outcome.map image ≠ .ok value := by
  cases outcome with
  | error fault => nofun
  | ok result =>
      intro same
      exact apart result (Except.ok.inj same)

/-- Only the tag of texts reads a text, and it reads the text as it is. -/
theorem text_of_readScalar {tag : Tag} (read : readScalar tag text = .ok (.str word)) :
    text = word := by
  cases tag with
  | str =>
      cases read
      rfl
  | bool =>
      simp only [readScalar, readBool] at read
      split at read <;> cases read
  | int =>
      simp only [readScalar, readInt] at read
      split at read
      · cases read
      · exact absurd read (map_ne_ok fun _ => Value.noConfusion)
  | float =>
      simp only [readScalar, readFloat] at read
      split at read
      · cases read
      · exact absurd read (map_ne_ok fun _ => Value.noConfusion)
  | binary =>
      simp only [readScalar, readBinary] at read
      split at read
      · split at read <;> cases read
      · cases read
  | timestamp =>
      simp only [readScalar, readTimestamp] at read
      split at read
      · cases read
      · split at read
        · cases read
        · split at read
          · cases read
          · split at read <;> cases read
  | _ => cases read

namespace Node

variable {fuel : Nat} {node : Node}

theorem lends_of_scalarValue (read : scalarValue fuel node = .ok (.str word)) :
    node.Lends word := by
  rw [scalarValue.eq_def] at read
  split at read
  · cases read
  · split at read
    · rename_i text found
      rw [← text_of_readScalar read]
      exact lends_of_scalarText? found
    · cases read

/-- A node that is built as a text is one that stands for it. -/
theorem lends_of_build_str (built : build fuel node = .ok (.str word)) : node.Lends word := by
  cases fuel with
  | zero => cases built
  | succ fuel =>
      rw [build] at built
      split at built
      · exact absurd built (map_ne_ok fun _ => Value.noConfusion)
      · exact absurd built (map_ne_ok fun _ => Value.noConfusion)
      · split at built
        · cases built
        · exact absurd built (map_ne_ok fun _ => Value.noConfusion)
      · exact absurd built (map_ne_ok fun _ => Value.noConfusion)
      · exact absurd built (map_ne_ok fun _ => Value.noConfusion)
      · split at built
        · rename_i value scalar
          cases built
          exact lends_of_scalarValue scalar
        · cases built

/-- The node that is read as a key stands for the same text. -/
theorem lends_asKey (lends : node.asKey.Lends word) : node.Lends word := by
  fun_cases asKey node with
  | case1 text =>
      cases lends
      exact .scalar
  | case2 items => cases lends
  | case3 pairs =>
      cases lends with
      | default first lends => exact .default first lends
  | case4 node scalar sequence mapping =>
      rwa [asKey.eq_4 node scalar sequence mapping] at lends

/-! ## Pairs in their order -/

theorem deeper_eq_ok {α : Type} {outcome : Outcome α} {result : α} :
    deeper outcome = .ok result ↔ outcome = .ok result := by
  cases outcome with
  | ok other => rfl
  | error failure => simp [deeper, Except.mapError]

theorem both_eq_ok {α β : Type} {first : Outcome α} {second : Outcome β} {left : α} {right : β} :
    both first second = .ok (left, right) ↔ first = .ok left ∧ second = .ok right := by
  cases first <;> cases second <;> simp [both]

/-- All outcomes are collected if all of them are good. -/
theorem collect_eq_ok {α : Type} {outcomes : List (Outcome α)} {results : List α} :
    collect outcomes = .ok results ↔ outcomes = results.map .ok := by
  induction outcomes generalizing results with
  | nil => cases results <;> simp [collect]
  | cons outcome outcomes ih =>
      rw [collect]
      cases results with
      | nil =>
          cases both outcome (collect outcomes) <;> simp [Except.map]
      | cons result results =>
          rw [List.map_cons, List.cons.injEq, ← ih, ← both_eq_ok]
          cases both outcome (collect outcomes) <;> simp [Except.map, Prod.ext_iff]

/-- The pairs of a mapping that are not merge keys. -/
def ownPairs (pairs : List (Node × Node)) : List (Node × Node) :=
  (pairs.filter fun pair => pair.1.tag != .merge).map fun pair => (pair.1.asKey, pair.2)

theorem own_of_splitPairs? {pairs taken own : List (Node × Node)}
    (split : splitPairs? pairs = some (taken, own)) : own = ownPairs pairs := by
  induction pairs generalizing taken own with
  | nil =>
      rw [splitPairs?] at split
      cases split
      rfl
  | cons pair pairs ih =>
      rcases pair with ⟨key, value⟩
      rw [splitPairs?] at split
      split at split
      · rename_i merges
        have skipped : ownPairs ((key, value) :: pairs) = ownPairs pairs := by
          rw [ownPairs, List.filter_cons_of_neg (by simpa [bne] using merges), ownPairs]
        have kept {source : List (Node × Node)}
            (joined : ((splitPairs? pairs).bind fun found =>
              some (source ++ found.1, found.2)) = some (taken, own)) : own = ownPairs pairs := by
          obtain ⟨⟨others, rest⟩, below, same⟩ := Option.bind_eq_some_iff.mp joined
          cases same
          exact ih below
        rw [skipped]
        -- whatever the value of the merge key brings in, it adds nothing to the own pairs
        cases value with
        | scalar tag text => cases split
        | mapping tag inner =>
            obtain ⟨source, -, joined⟩ := Option.bind_eq_some_iff.mp split
            exact kept joined
        | sequence tag items =>
            obtain ⟨source, -, joined⟩ := Option.bind_eq_some_iff.mp split
            exact kept joined
      · rename_i plain
        obtain ⟨⟨others, rest⟩, below, same⟩ := Option.bind_eq_some_iff.mp split
        cases same
        rw [ownPairs, List.filter_cons_of_pos (by simpa [bne] using plain), List.map_cons, ih below]
        rfl

/-! ## Entries -/

/-- A mapping has a value under a word: of its own pairs with this key it is the last one. -/
inductive Holds (word : String) : (node value : Node) → Prop where
  | last {front back : List (Node × Node)} {value : Node}
      (others : ∀ pair ∈ back, ¬ pair.1.Lends word) :
      Holds word (.mapping .map (front ++ (.scalar .str word, value) :: back)) value

/-- The values that a pair of nodes becomes. A collection is no key. -/
def buildPair (fuel : Nat) (pair : Node × Node) : Outcome (Value × Value) :=
  both
    (if isCollectionTag pair.1.tag then within .malformedConfig else deeper (build fuel pair.1))
    (deeper (build fuel pair.2))

theorem buildPair_eq_ok {pair : Node × Node} {key value : Value}
    (built : buildPair fuel pair = .ok (key, value)) :
    build fuel pair.1 = .ok key ∧ build fuel pair.2 = .ok value := by
  rw [buildPair, both_eq_ok, deeper_eq_ok] at built
  obtain ⟨keyed, valued⟩ := built
  split at keyed
  · cases keyed
  · exact ⟨deeper_eq_ok.mp keyed, valued⟩

theorem build_mapping (fuel : Nat) (pairs : List (Node × Node)) :
    build (fuel + 1) (.mapping .map pairs) =
      (match (Node.mapping .map pairs).mergedPairs? with
      | none => within .malformedConfig
      | some pairs => collect (pairs.map (buildPair fuel))).map
        fun pairs => .map (Value.entriesOf pairs) := by
  rw [build]
  rfl

/-- What a mapping has under a word, its map holds under it. -/
theorem Holds.field_of_build {value : Node} {whole : Value} (holds : node.Holds word value)
    (built : build fuel node = .ok whole) :
    ∃ less entries, whole = .map entries ∧ build less value = .ok (Value.field entries word) := by
  obtain ⟨fuel, rfl⟩ : ∃ less, fuel = less + 1 := by
    cases fuel with
    | zero => cases built
    | succ fuel => exact ⟨fuel, rfl⟩
  cases holds with
  | @last front back value others =>
      rw [build_mapping] at built
      split at built
      · cases built
      · rename_i pairs merged
        obtain ⟨⟨taken, own⟩, split, rfl⟩ := Option.map_eq_some_iff.mp merged
        cases collected : collect ((taken ++ own).map (buildPair fuel)) with
        | error failure =>
            rw [collected] at built
            cases built
        | ok values =>
            rw [collected] at built
            cases built
            have placed : taken ++ own =
                (taken ++ ownPairs front) ++ (.scalar .str word, value) :: ownPairs back := by
              rw [own_of_splitPairs? split]
              simp [ownPairs, Node.tag, asKey]
            rw [placed, collect_eq_ok, List.map_append, List.map_cons] at collected
            obtain ⟨earlier, rest, rfl, -, same⟩ := List.append_eq_map_iff.mp collected
            obtain ⟨⟨key, found⟩, later, rfl, held, after⟩ := List.map_eq_cons_iff.mp same
            obtain ⟨keyed, valued⟩ := buildPair_eq_ok held.symm
            have named : key = .str word := by
              cases fuel with
              | zero => cases keyed
              | succ fuel => exact (Except.ok.inj keyed).symm
            have last : ∀ pair ∈ later, pair.1 ≠ .str word := by
              intro pair member same
              have inside : Except.ok pair ∈ (ownPairs back).map (buildPair fuel) :=
                after ▸ List.mem_map_of_mem member
              obtain ⟨written, owned, made⟩ := List.mem_map.mp inside
              obtain ⟨source, unmerged, rfl⟩ := List.mem_map.mp owned
              have text := (buildPair_eq_ok made).1
              rw [same] at text
              exact others source (List.mem_filter.mp unmerged).1
                (lends_asKey (lends_of_build_str text))
            refine ⟨fuel, _, rfl, ?_⟩
            rw [named, Value.field_entriesOf last]
            exact valued

/-! ## Mappings with text keys -/

/-- A mapping all of whose keys are texts. -/
def ofTexts (pairs : List (String × Node)) : Node :=
  .mapping .map (pairs.map fun pair => (.scalar .str pair.1, pair.2))

theorem mergedPairs?_ofTexts (pairs : List (String × Node)) :
    (ofTexts pairs).mergedPairs? =
      some (pairs.map fun pair => (.scalar .str pair.1, pair.2)) := by
  have split : splitPairs? (pairs.map fun pair => (Node.scalar .str pair.1, pair.2)) =
      some ([], pairs.map fun pair => (.scalar .str pair.1, pair.2)) := by
    induction pairs with
    | nil => rw [List.map_nil, splitPairs?]
    | cons pair pairs ih =>
        rw [List.map_cons, splitPairs?, Node.tag, if_neg (by decide), ih]
        rfl
  rw [ofTexts, mergedPairs?, split]
  rfl

/-- Such a mapping becomes a map from these texts if its values can be built. -/
theorem build_ofTexts {parts : List (String × Node × Value)} {fuel : Nat}
    (each : ∀ part ∈ parts, build (fuel + 1) part.2.1 = .ok part.2.2) :
    build (fuel + 2) (ofTexts (parts.map fun part => (part.1, part.2.1))) =
      .ok (.map (Value.entriesOf (parts.map fun part => (.str part.1, part.2.2)))) := by
  have pairs : (parts.map fun part => (Node.scalar .str part.1, part.2.1)).map
      (buildPair (fuel + 1)) = (parts.map fun part => (Value.str part.1, part.2.2)).map .ok := by
    rw [List.map_map, List.map_map]
    refine List.map_congr_left fun part member => ?_
    have value : deeper (build (fuel + 1) part.2.1) = .ok part.2.2 :=
      deeper_eq_ok.mpr (each part member)
    exact both_eq_ok.mpr ⟨rfl, value⟩
  have collected := collect_eq_ok.mpr pairs
  have merged := mergedPairs?_ofTexts (parts.map fun part => (part.1, part.2.1))
  rw [List.map_map] at merged
  rw [ofTexts] at merged ⊢
  rw [build_mapping, merged]
  have whole : collect (((parts.map ((fun pair => (Node.scalar .str pair.1, pair.2)) ∘ fun part =>
      (part.1, part.2.1)))).map (buildPair (fuel + 1))) = _ := collected
  simp only [whole]
  rfl

end Node

end Yaml

end SlashBot

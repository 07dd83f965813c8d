import SlashBot.Proofs.Path
import SlashBot.Proofs.Roster

/-!
# Words sorted into additions and removals

Specifiers are rendered and cut into words, and each word is an addition, a removal, or dropped.
The rules are given here one by one, for a word in front of others: so the names that are added
and those that are removed stand in the order of their words, none is lost, and none is there
twice for one word.
-/

namespace SlashBot

open Template
open Text

variable {people : Bool} {word name : List Char} {words : List (List Char)}

/-! ## Words -/

/-- A word is not empty and has no blank. -/
theorem of_mem_words {text : List Char} (member : word ∈ Text.words text) :
    word ≠ [] ∧ ∀ c ∈ word, isBlank c = false := by
  obtain ⟨piece, filled⟩ := List.mem_filter.mp member
  exact ⟨by simpa using filled, not_of_mem_splitWhere piece⟩

/-! ## Rules for words -/

namespace Change

/-- The name as it is used: for people without an at sign in front. -/
def bareName (people : Bool) (name : List Char) : List Char :=
  if people then dropAt name else name

/-- A word that leaves no name. -/
def isIdle (people : Bool) (word : List Char) : Bool :=
  word == ['-'] || people && (word == ['@'] || word == ['-', '@'])

theorem bareName_eq_nil_iff :
    bareName people name = [] ↔ name = [] ∨ people = true ∧ name = ['@'] := by
  cases people with
  | false => simp [bareName]
  | true =>
      rw [bareName, if_pos rfl, dropAt.eq_def]
      split
      · simp
      · rename_i name other
        constructor
        · exact .inl
        · rintro (empty | ⟨-, signed⟩)
          · exact empty
          · exact absurd signed (other [])

theorem mem_of_mem_bareName {c : Char} (member : c ∈ bareName people name) : c ∈ name := by
  rw [bareName] at member
  split at member
  · rw [dropAt.eq_def] at member
    split at member
    · exact List.mem_cons_of_mem _ member
    · exact member
  · exact member

theorem ofWord?_star : ofWord? people ['*'] = some (remove ['*']) := rfl

theorem ofWord?_hyphen : ofWord? people ('-' :: name) =
    if (bareName people name).isEmpty then none else some (remove (bareName people name)) := rfl

theorem ofWord?_other (notStar : word ≠ ['*']) (notHyphen : word.head? ≠ some '-') :
    ofWord? people word =
      if (bareName people word).isEmpty then none else some (add (bareName people word)) := by
  rw [ofWord?.eq_def]
  extract_lets bare
  split
  · exact absurd rfl notStar
  · exact absurd rfl notHyphen
  · rfl

theorem ofWord?_idle (idle : isIdle people word = true) : ofWord? people word = none := by
  simp only [isIdle, Bool.or_eq_true, Bool.and_eq_true, beq_iff_eq] at idle
  rcases idle with rfl | ⟨rfl, rfl | rfl⟩
  · cases people <;> rfl
  · rfl
  · rfl

theorem word_cases (word : List Char) :
    word = ['*'] ∨ (∃ name, word = '-' :: name) ∨ word ≠ ['*'] ∧ word.head? ≠ some '-' := by
  by_cases star : word = ['*']
  · exact .inl star
  · by_cases hyphen : word.head? = some '-'
    · exact .inr (.inl (List.head?_eq_some_iff.mp hyphen))
    · exact .inr (.inr ⟨star, hyphen⟩)

/-- A word that asks for nothing leaves no name. -/
theorem isIdle_of_ofWord? (filled : word ≠ []) (none : ofWord? people word = none) :
    isIdle people word = true := by
  rcases word_cases word with rfl | ⟨name, rfl⟩ | ⟨notStar, notHyphen⟩
  · cases none
  · rw [ofWord?_hyphen] at none
    split at none
    · rename_i empty
      rcases bareName_eq_nil_iff.mp (List.isEmpty_iff.mp empty) with rfl | ⟨rfl, rfl⟩
      · rfl
      · rfl
    · cases none
  · rw [ofWord?_other notStar notHyphen] at none
    split at none
    · rename_i empty
      rcases bareName_eq_nil_iff.mp (List.isEmpty_iff.mp empty) with rfl | ⟨rfl, rfl⟩
      · exact absurd rfl filled
      · rfl
    · cases none

end Change

open Change in
/-- Words sorted into names to add, names to remove, and words that are dropped. Each rule is for
a word in front of words that are already sorted. -/
inductive Sorts (people : Bool) :
    (words add remove dropped : List (List Char)) → Prop where
  | nil : Sorts people [] [] [] []
  | star {words add remove dropped : List (List Char)} :
      Sorts people words add remove dropped →
      Sorts people (['*'] :: words) add (['*'] :: remove) dropped
  | remove {name : List Char} {words add remove dropped : List (List Char)}
      (filled : bareName people name ≠ []) :
      Sorts people words add remove dropped →
      Sorts people (('-' :: name) :: words) add (bareName people name :: remove) dropped
  | add {word : List Char} {words add remove dropped : List (List Char)}
      (notStar : word ≠ ['*']) (notHyphen : word.head? ≠ some '-')
      (filled : bareName people word ≠ []) :
      Sorts people words add remove dropped →
      Sorts people (word :: words) (bareName people word :: add) remove dropped
  | drop {word : List Char} {words add remove dropped : List (List Char)}
      (idle : isIdle people word = true) :
      Sorts people words add remove dropped →
      Sorts people (word :: words) add remove (word :: dropped)

namespace Sorts

variable {add remove dropped : List (List Char)}

/-- Every word becomes one name or is dropped. -/
theorem length_eq (sorts : Sorts people words add remove dropped) :
    add.length + remove.length + dropped.length = words.length := by
  induction sorts with
  | nil => rfl
  | star _ ih | remove _ _ ih | add _ _ _ _ ih | drop _ _ ih =>
      simp only [List.length_cons]
      omega

/-- The words that are dropped are those that leave no name. -/
theorem dropped_eq (sorts : Sorts people words add remove dropped) :
    dropped = words.filter (Change.isIdle people) := by
  induction sorts with
  | nil => rfl
  | star _ ih =>
      rw [List.filter_cons_of_neg (by simp [Change.isIdle]), ih]
  | @remove name _ _ _ _ filled _ ih =>
      have busy : Change.isIdle people ('-' :: name) = false := by
        rw [Ne, Change.bareName_eq_nil_iff, not_or] at filled
        simpa [Change.isIdle] using filled
      rw [List.filter_cons_of_neg (by simp [busy]), ih]
  | @add word _ _ _ _ notStar notHyphen filled _ ih =>
      have busy : Change.isIdle people word = false := by
        rw [Ne, Change.bareName_eq_nil_iff, not_or] at filled
        have hyphen (rest : List Char) : word ≠ '-' :: rest := by
          rintro rfl
          exact notHyphen rfl
        simpa [Change.isIdle, hyphen] using filled.2
      rw [List.filter_cons_of_neg (by simp [busy]), ih]
  | drop idle _ ih => rw [List.filter_cons_of_pos idle, ih]

/-- A name that is left of one of some words. -/
def IsLeftOf (name : List Char) (words : List (List Char)) : Prop :=
  name ≠ [] ∧ ∃ word ∈ words, ∀ c ∈ name, c ∈ word

theorem IsLeftOf.cons (left : IsLeftOf name words) (word : List Char) :
    IsLeftOf name (word :: words) := by
  obtain ⟨filled, other, among, inside⟩ := left
  exact ⟨filled, other, List.mem_cons_of_mem word among, inside⟩

theorem isLeftOf (sorts : Sorts people words add remove dropped)
    (member : name ∈ add ∨ name ∈ remove) : IsLeftOf name words := by
  induction sorts with
  | nil => simp at member
  | star _ ih =>
      rw [List.mem_cons] at member
      rcases member with added | rfl | removed
      · exact (ih (.inl added)).cons _
      · exact ⟨List.cons_ne_nil _ _, _, List.mem_cons_self, fun _ inside => inside⟩
      · exact (ih (.inr removed)).cons _
  | remove filled _ ih =>
      rw [List.mem_cons] at member
      rcases member with added | rfl | removed
      · exact (ih (.inl added)).cons _
      · exact ⟨filled, _, List.mem_cons_self, fun c inside =>
          List.mem_cons_of_mem _ (Change.mem_of_mem_bareName inside)⟩
      · exact (ih (.inr removed)).cons _
  | add notStar notHyphen filled _ ih =>
      rw [List.mem_cons] at member
      rcases member with (rfl | added) | removed
      · exact ⟨filled, _, List.mem_cons_self, fun c inside => Change.mem_of_mem_bareName inside⟩
      · exact (ih (.inl added)).cons _
      · exact (ih (.inr removed)).cons _
  | drop idle _ ih => exact (ih member).cons _

/-- Where at signs are kept, a name that is added looks like no removal. -/
theorem unsigned (sorts : Sorts false words add remove dropped) (member : name ∈ add) :
    name ≠ ['*'] ∧ name.head? ≠ some '-' := by
  induction sorts with
  | nil => cases member
  | star _ ih | remove _ _ ih | drop _ _ ih => exact ih member
  | add notStar notHyphen filled _ ih =>
      rcases List.mem_cons.mp member with rfl | later
      · exact ⟨notStar, notHyphen⟩
      · exact ih later

end Sorts

/-! ## Sorting as it is done -/

namespace Changes

theorem ofWords_cons_none (idle : Change.ofWord? people word = none) :
    ofWords people (word :: words) = ofWords people words := by
  simp only [ofWords, List.filterMap_cons_none idle]

theorem ofWords_cons_add (asked : Change.ofWord? people word = some (.add name)) :
    ofWords people (word :: words) =
      ⟨String.ofList name :: (ofWords people words).add, (ofWords people words).remove⟩ := by
  simp only [ofWords, List.filterMap_cons_some asked]
  rfl

theorem ofWords_cons_remove (asked : Change.ofWord? people word = some (.remove name)) :
    ofWords people (word :: words) =
      ⟨(ofWords people words).add, String.ofList name :: (ofWords people words).remove⟩ := by
  simp only [ofWords, List.filterMap_cons_some asked]
  rfl

end Changes

namespace Sorts

variable {add remove dropped : List (List Char)}

theorem cons_add (sorts : Sorts people words add remove dropped)
    (asked : Change.ofWord? people word = some (.add name)) :
    Sorts people (word :: words) (name :: add) remove dropped := by
  rcases Change.word_cases word with rfl | ⟨rest, rfl⟩ | ⟨notStar, notHyphen⟩
  · cases asked
  · rw [Change.ofWord?_hyphen] at asked
    split at asked
    · cases asked
    · cases asked
  · rw [Change.ofWord?_other notStar notHyphen] at asked
    split at asked
    · cases asked
    · rename_i filled
      cases asked
      exact .add notStar notHyphen (by simpa using filled) sorts

theorem cons_remove (sorts : Sorts people words add remove dropped)
    (asked : Change.ofWord? people word = some (.remove name)) :
    Sorts people (word :: words) add (name :: remove) dropped := by
  rcases Change.word_cases word with rfl | ⟨rest, rfl⟩ | ⟨notStar, notHyphen⟩
  · cases asked
    exact .star sorts
  · rw [Change.ofWord?_hyphen] at asked
    split at asked
    · cases asked
    · rename_i filled
      cases asked
      exact .remove (by simpa using filled) sorts
  · rw [Change.ofWord?_other notStar notHyphen] at asked
    split at asked
    · cases asked
    · cases asked

/-- What is asked for is sorted by the rules, as no word is empty. -/
theorem exists_ofWords (people : Bool) (words : List (List Char))
    (filled : ∀ word ∈ words, word ≠ []) :
    ∃ dropped, Sorts people words ((Changes.ofWords people words).add.map String.toList)
      ((Changes.ofWords people words).remove.map String.toList) dropped := by
  induction words with
  | nil => exact ⟨[], .nil⟩
  | cons word words ih =>
      obtain ⟨dropped, later⟩ := ih fun other member => filled other (List.mem_cons_of_mem word member)
      cases asked : Change.ofWord? people word with
      | none =>
          have idle := Change.isIdle_of_ofWord? (filled word List.mem_cons_self) asked
          rw [Changes.ofWords_cons_none asked]
          exact ⟨_, .drop idle later⟩
      | some change =>
          cases change with
          | add name =>
              rw [Changes.ofWords_cons_add asked, List.map_cons, String.toList_ofList]
              exact ⟨dropped, later.cons_add asked⟩
          | remove name =>
              rw [Changes.ofWords_cons_remove asked, List.map_cons, String.toList_ofList]
              exact ⟨dropped, later.cons_remove asked⟩

/-- The rules leave no choice. -/
theorem ofWords_eq (sorts : Sorts people words add remove dropped) :
    Changes.ofWords people words = ⟨add.map String.ofList, remove.map String.ofList⟩ := by
  induction sorts with
  | nil => rfl
  | star _ ih => rw [Changes.ofWords_cons_remove Change.ofWord?_star, ih, List.map_cons]
  | remove filled _ ih =>
      have asked := Change.ofWord?_hyphen.trans (if_neg (by simpa using filled))
      rw [Changes.ofWords_cons_remove asked, ih, List.map_cons]
  | add notStar notHyphen filled _ ih =>
      have asked := (Change.ofWord?_other notStar notHyphen).trans (if_neg (by simpa using filled))
      rw [Changes.ofWords_cons_add asked, ih, List.map_cons]
  | drop idle _ ih => rw [Changes.ofWords_cons_none (Change.ofWord?_idle idle), ih]

end Sorts

/-- These changes are what the words ask for. -/
structure Changes.Classifies (people : Bool) (words : List (List Char)) (changes : Changes) :
    Prop where
  sorted : ∀ add remove dropped, Sorts people words add remove dropped ↔
    add = changes.add.map String.toList ∧ remove = changes.remove.map String.toList ∧
      dropped = words.filter (Change.isIdle people)
  counted : changes.add.length + changes.remove.length +
    (words.filter (Change.isIdle people)).length = words.length
  named : ∀ name ∈ changes.add ++ changes.remove,
    name ≠ "" ∧ ∀ c ∈ name.toList, isBlank c = false
  unsigned : people = false → ∀ name ∈ changes.add, name ≠ "*" ∧ name.toList.head? ≠ some '-'
  starred : "*" ∈ changes.remove ↔
    ['*'] ∈ words ∨ ['-', '*'] ∈ words ∨ people = true ∧ ['-', '@', '*'] ∈ words

theorem Changes.classifies_ofWords (people : Bool) (words : List (List Char))
    (solid : ∀ word ∈ words, word ≠ [] ∧ ∀ c ∈ word, isBlank c = false) :
    (Changes.ofWords people words).Classifies people words := by
  obtain ⟨dropped, sorts⟩ := Sorts.exists_ofWords people words fun word member =>
    (solid word member).1
  have left := sorts.dropped_eq
  constructor
  · intro add remove others
    constructor
    · intro again
      rw [again.ofWords_eq]
      simp [again.dropped_eq, Function.comp_def]
    · rintro ⟨rfl, rfl, rfl⟩
      exact left ▸ sorts
  · rw [← left]
    simpa using sorts.length_eq
  · intro name member
    have among : name.toList ∈ (Changes.ofWords people words).add.map String.toList ∨
        name.toList ∈ (Changes.ofWords people words).remove.map String.toList :=
      (List.mem_append.mp member).imp (List.mem_map_of_mem) (List.mem_map_of_mem)
    obtain ⟨filled, word, inWords, inside⟩ := sorts.isLeftOf among
    refine ⟨?_, fun c member => (solid word inWords).2 c (inside c member)⟩
    rintro rfl
    exact filled rfl
  · rintro rfl name member
    obtain ⟨notStar, notHyphen⟩ := sorts.unsigned (List.mem_map_of_mem member)
    refine ⟨?_, notHyphen⟩
    rintro rfl
    exact notStar rfl
  · exact star_mem_remove_iff

/-- The changes of some specifiers, and then those of others. -/
def Changes.append (first second : Changes) : Changes :=
  ⟨first.add ++ second.add, first.remove ++ second.remove⟩

theorem Changes.ofWords_append (people : Bool) (first second : List (List Char)) :
    ofWords people (first ++ second) = (ofWords people first).append (ofWords people second) := by
  simp [ofWords, append]

theorem specifierWords_append (first second : List String) (context : Context) :
    specifierWords (first ++ second) context = do
      return (← specifierWords first context) ++ (← specifierWords second context) := by
  rw [specifierWords, specifierWords, specifierWords, List.mapM_append]
  simp only [bind_assoc, pure_bind, List.flatMap_append]

/-- Specifiers that render are classified word by word, and the changes of specifiers in a row are
those of the first ones followed by those of the others. -/
theorem Changes.ofSpecifiers_classifies (specifiers : List String) (context : Context)
    (people : Bool) :
    (∀ texts, specifiers.mapM (fun specifier => render specifier context) = .ok texts →
      ∃ changes, ofSpecifiers specifiers context people = .ok changes ∧
        changes.Classifies people (texts.flatMap fun text => Text.words text.toList)) ∧
      ∀ more, ofSpecifiers (specifiers ++ more) context people = do
        return (← ofSpecifiers specifiers context people).append
          (← ofSpecifiers more context people) := by
  constructor
  · intro texts rendered
    refine ⟨ofWords people (texts.flatMap fun text => Text.words text.toList), ?_, ?_⟩
    · rw [ofSpecifiers, specifierWords, rendered]
      rfl
    · apply classifies_ofWords
      intro word member
      obtain ⟨text, -, inText⟩ := List.mem_flatMap.mp member
      exact of_mem_words inText
  · intro more
    rw [ofSpecifiers, ofSpecifiers, ofSpecifiers, specifierWords_append]
    simp only [bind_assoc, pure_bind, ofWords_append]

/-- Specifiers with signs in front of names, and one that repeats what a command says. -/
def signedSpecifiers : List String :=
  ["@alice\t-@bob -@", "\x7b\x7binput\x7d\x7d"]

/-- The arguments of this command. -/
def signedContext : Context :=
  ⟨["@", "-bob", "*"], none⟩

/-- These specifiers as they are rendered. -/
def signedTexts : List String :=
  ["@alice\t-@bob -@", "@ -bob *"]

/-- Of six words, one adds a person, three remove somebody, and two have no name. -/
theorem Changes.ofSpecifiers_classifies_signed :
    signedSpecifiers.mapM (fun specifier => render specifier signedContext) = .ok signedTexts ∧
      ofSpecifiers signedSpecifiers signedContext true = .ok ⟨["alice"], ["bob", "bob", "*"]⟩ ∧
      Classifies true (signedTexts.flatMap fun text => Text.words text.toList)
        ⟨["alice"], ["bob", "bob", "*"]⟩ := by
  have rendered : signedSpecifiers.mapM (fun specifier => render specifier signedContext) =
      .ok signedTexts := rfl
  have found : ofSpecifiers signedSpecifiers signedContext true =
      .ok ⟨["alice"], ["bob", "bob", "*"]⟩ := rfl
  obtain ⟨changes, made, classified⟩ :=
    (ofSpecifiers_classifies signedSpecifiers signedContext true).1 signedTexts rendered
  cases made.symm.trans found
  exact ⟨rendered, found, classified⟩

end SlashBot

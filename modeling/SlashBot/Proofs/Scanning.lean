import Mathlib.Algebra.Group.Nat.Defs
import SlashBot.Proofs.Fault
import SlashBot.Proofs.Prose
import SlashBot.Yaml.Stream

/-!
# Scanning a document

The scanner reads a document from left to right: the text that is still to be read is always an end
of the whole text. Where the text has no form, the scanner refuses it as malformed. Two things are
beyond its limits instead: an escape by a number that no character has, and a version with a number
of too many digits. These are found again in the text if the scanner fails with another fault.
-/

namespace SlashBot.Yaml

open Number Text

/-! ## Places in a document -/

namespace Cursor

/-- The text that is still to be read is an end of the whole text. -/
def In (text : List Char) (cursor : Cursor) : Prop :=
  cursor.rest <:+ text

variable {text : List Char} {cursor : Cursor}

theorem rest_next (cursor : Cursor) : cursor.next.rest = cursor.rest.tail := by
  rw [next]
  split
  · rename_i done
    rw [done]
    rfl
  · rename_i c rest found
    rw [found]
    split <;> rfl

theorem rest_skip (count : Nat) (cursor : Cursor) :
    (cursor.skip count).rest = cursor.rest.drop count := by
  induction count generalizing cursor with
  | zero => rfl
  | succ count ih => rw [skip, ih, rest_next, List.drop_tail]

/-- The text behind a run is what the run leaves of the text. -/
theorem rest_takeWhile (test : Char → Bool) (cursor : Cursor) :
    (cursor.takeWhile test).1 ++ (cursor.takeWhile test).2.rest = cursor.rest := by
  rw [takeWhile, rest_skip]
  exact List.prefix_iff_eq_append.mp (List.takeWhile_prefix test)

/-- The character at the cursor is the first of the text. -/
theorem rest_of_current {c : Char} (found : cursor.current = c) (present : c ≠ endMark) :
    cursor.rest = c :: cursor.next.rest := by
  rw [rest_next]
  rw [current, peek] at found
  cases rest : cursor.rest with
  | nil =>
      rw [rest] at found
      exact (present found.symm).elim
  | cons d others =>
      rw [rest] at found
      exact congrArg (· :: others) found

theorem In.skip (inside : cursor.In text) (count : Nat) : (cursor.skip count).In text := by
  rw [In, rest_skip]
  exact (List.drop_suffix count cursor.rest).trans inside

theorem In.next (inside : cursor.In text) : cursor.next.In text :=
  inside.skip 1

theorem In.takeWhile (inside : cursor.In text) (test : Char → Bool) :
    (cursor.takeWhile test).2.In text :=
  inside.skip _

theorem In.skipWhile (inside : cursor.In text) (test : Char → Bool) :
    (cursor.skipWhile test).In text :=
  inside.skip _

theorem In.skipSpaces (inside : cursor.In text) : cursor.skipSpaces.In text :=
  inside.skip _

theorem In.skipComment (inside : cursor.In text) : cursor.skipComment.In text := by
  rw [Cursor.skipComment]
  split
  · exact inside.skip _
  · exact inside

theorem In.takeBreak (inside : cursor.In text) : cursor.takeBreak.2.In text := by
  simp only [Cursor.takeBreak]
  split
  · exact inside.skip 2
  · split
    · exact inside.next
    · split
      · exact inside.next
      · exact inside

end Cursor

/-! ## Texts beyond the limits -/

/-- Two things that a text may hold and that are beyond the limits of the scanner, with the faults
that they give. -/
inductive Excess (text : List Char) : (fault : Fault) → Prop where
  /-- An escape by a number that is too high for a character. -/
  | escape {digits : List Char} {number : Nat} {fault : Fault}
      (written : '\\' :: 'U' :: digits <:+: text) (width : digits.length = 8)
      (denotes : hexNumber? digits = some number) (high : 0x10ffff < number)
      (named : fault = if 0x7fffffff < number then .tooLarge else .badValue) : Excess text fault
  /-- A directive for a version with a number of too many digits. -/
  | version {front digits : List Char} (written : "%YAML".toList ++ front ++ digits <:+: text)
      (between : ∀ c ∈ front, c = ' ' ∨ c = '.' ∨ c.isDigit = true)
      (numeric : ∀ c ∈ digits, c.isDigit = true) (long : maxDecimalDigits < digits.length) :
      Excess text .badValue

/-- What is beyond the limits does not count as a mistake in the configuration. -/
theorem Excess.foreign {text : List Char} {fault : Fault} (excess : Excess text fault) :
    fault.Foreign := by
  cases excess with
  | escape _ _ _ _ named =>
      rw [named]
      split <;> rfl
  | version => rfl

/-- A fault of scanning: the text has no form, or something in it is beyond the limits. -/
def Unscanned (text : List Char) (fault : Fault) : Prop :=
  fault = .malformedConfig ∨ Excess text fault

/-- Reading stays inside the text, and a fault comes from the text. -/
structure Reads {α : Type} (text : List Char) (place : α → Cursor) (outcome : Except Fault α) :
    Prop where
  inside : ∀ result, outcome = .ok result → (place result).In text
  faults : FaultsAre (Unscanned text) outcome

section Reading

variable {α β : Type} {text : List Char} {place : α → Cursor} {other : β → Cursor}

theorem reads_ok {result : α} (inside : (place result).In text) :
    Reads text place (.ok result) where
  inside given same := by
    cases same
    exact inside
  faults := faultsAre_ok result

theorem reads_refused : Reads text place (.error .malformedConfig) where
  inside := nofun
  faults := faultsAre_error (.inl rfl)

theorem reads_excess {fault : Fault} (excess : Excess text fault) :
    Reads text place (.error fault) where
  inside := nofun
  faults := faultsAre_error (.inr excess)

theorem reads_ite {condition : Prop} [Decidable condition] {first second : Except Fault α}
    (positive : condition → Reads text place first)
    (negative : ¬ condition → Reads text place second) :
    Reads text place (if condition then first else second) := by
  split
  · rename_i holds
    exact positive holds
  · rename_i fails
    exact negative fails

theorem Reads.bind {outcome : Except Fault α} {next : α → Except Fault β}
    (first : Reads text place outcome)
    (second : ∀ result, (place result).In text → Reads text other (next result)) :
    Reads text other (outcome >>= next) := by
  cases outcome with
  | error fault =>
      exact ⟨nofun, faultsAre_error (first.faults fault rfl)⟩
  | ok result => exact second result (first.inside result rfl)

end Reading

section Names

variable {text : List Char} {cursor : Cursor}

/-! ## Names -/

theorem reads_takeName (inside : cursor.In text) : Reads text Prod.snd (takeName cursor) :=
  reads_ite (fun _ => reads_refused) fun _ => reads_ok (inside.next.skip _)

theorem reads_takeEscapedOctets (fuel : Nat) (inside : cursor.In text) :
    Reads text Prod.snd (takeEscapedOctets fuel cursor) := by
  induction fuel generalizing cursor with
  | zero => exact reads_refused
  | succ fuel ih =>
      rw [takeEscapedOctets]
      refine reads_ite (fun _ => ?_) fun _ => reads_ok inside
      split
      · exact (ih (inside.skip 3)).bind fun _ within => reads_ok within
      · exact reads_refused

theorem reads_takeTagChars (fuel : Nat) (inside : cursor.In text) :
    Reads text Prod.snd (takeTagChars fuel cursor) := by
  induction fuel generalizing cursor with
  | zero => exact reads_refused
  | succ fuel ih =>
      simp only [takeTagChars]
      refine reads_ite (fun _ => ?_) fun _ => reads_ok (inside.skip _)
      refine (reads_takeEscapedOctets _ (inside.skip _)).bind fun found within => ?_
      split
      · exact (ih within).bind fun _ within => reads_ok within
      · exact reads_refused

theorem reads_takeTagSuffix (inside : cursor.In text) :
    Reads text Prod.snd (takeTagSuffix cursor) :=
  (reads_takeTagChars _ inside).bind fun _ within =>
    reads_ite (fun _ => reads_refused) fun _ => reads_ok within

theorem reads_takeHandle (inside : cursor.In text) : Reads text Prod.snd (takeHandle cursor) :=
  reads_ite (fun _ => reads_refused) fun _ =>
    reads_ite (fun _ => reads_ok inside.next) fun _ =>
      reads_ite (fun _ => reads_ok (inside.next.skip _).next) fun _ => reads_refused

theorem reads_takeTag (inside : cursor.In text) : Reads text Prod.snd (takeTag cursor) := by
  rw [takeTag]
  refine Reads.bind (?_ : Reads text Prod.snd _) fun _ within =>
    reads_ite (fun _ => reads_ok within) fun _ => reads_refused
  refine reads_ite (fun _ => ?_) fun _ => reads_ite (fun _ => reads_ok inside.next) fun _ =>
    reads_ite (fun _ => ?_) fun _ => ?_
  · exact (reads_takeTagSuffix (inside.skip 2)).bind fun _ within =>
      reads_ite (fun _ => reads_ok within.next) fun _ => reads_refused
  · exact (reads_takeHandle inside).bind fun _ within => (reads_takeTagSuffix within).bind
      fun _ within => reads_ok within
  · exact (reads_takeTagSuffix inside.next).bind fun _ within => reads_ok within

theorem reads_takeHandleMeaning (inside : cursor.In text) :
    Reads text Prod.snd (takeHandleMeaning cursor) :=
  (reads_takeHandle inside.skipSpaces).bind fun _ within =>
    reads_ite (fun _ => reads_refused) fun _ =>
      (reads_takeTagSuffix within.skipSpaces).bind fun _ within =>
        reads_ite (fun _ => reads_ok within) fun _ => reads_refused

theorem reads_takeLineEnd (inside : cursor.In text) : Reads text id (takeLineEnd cursor) :=
  reads_ite (fun _ => reads_ok inside.skipSpaces.skipComment.takeBreak) fun _ => reads_refused

theorem isDigit_of_mem_takeWhile {c : Char} (member : c ∈ (cursor.takeWhile isAsciiDigit).1) :
    c.isDigit = true := by
  have digit := List.all_eq_true.mp List.all_takeWhile c member
  simp only [isAsciiDigit, Bool.and_eq_true, decide_eq_true_eq] at digit
  exact Char.isDigit_iff_toNat.mpr digit

/-- A number of a version is refused, or has too many digits. -/
theorem reads_takeVersionNumber {front : List Char}
    (written : "%YAML".toList ++ front ++ cursor.rest <:+ text)
    (between : ∀ c ∈ front, c = ' ' ∨ c = '.' ∨ c.isDigit = true) :
    Reads text Prod.snd (takeVersionNumber cursor) := by
  have inside : cursor.In text := (List.suffix_append _ _).trans written
  simp only [takeVersionNumber]
  refine reads_ite (fun _ => reads_refused) fun filled => ?_
  have decimal : ∀ c ∈ (cursor.takeWhile isAsciiDigit).1, c.isDigit = true :=
    fun c => isDigit_of_mem_takeWhile
  rw [readInteger?_of_isDigit (by simpa using filled) decimal]
  split
  · exact reads_ok (inside.skip _)
  · rename_i unread
    split at unread
    · cases unread
    · rename_i long
      have whole := Cursor.rest_takeWhile isAsciiDigit cursor
      rw [← whole, ← List.append_assoc] at written
      exact reads_excess (.version ((List.prefix_append _ _).isInfix.trans written.isInfix) between
        decimal (Nat.not_le.mp long))

theorem takeVersionNumber_ok {number : Int} {after : Cursor}
    (read : takeVersionNumber cursor = .ok (number, after)) :
    after = (cursor.takeWhile isAsciiDigit).2 := by
  simp only [takeVersionNumber] at read
  split at read
  · cases read
  · split at read
    · cases read
      rfl
    · cases read

/-- The text from the mark of a version on is known where its numbers are read. -/
theorem reads_takeVersion (written : "%YAML".toList ++ cursor.rest <:+ text) :
    Reads text Prod.snd (takeVersion cursor) := by
  have spaces : ∀ c ∈ (cursor.takeWhile (· == ' ')).1, c = ' ' := by
    intro c member
    exact beq_iff_eq.mp (List.all_eq_true.mp List.all_takeWhile c member)
  have first : "%YAML".toList ++ (cursor.takeWhile (· == ' ')).1 ++ cursor.skipSpaces.rest <:+
      text := by
    rw [List.append_assoc, Cursor.skipSpaces, Cursor.skipWhile, Cursor.rest_takeWhile]
    exact written
  have major := reads_takeVersionNumber first fun c member => .inl (spaces c member)
  rw [takeVersion]
  cases read : takeVersionNumber cursor.skipSpaces with
  | error fault => exact ⟨nofun, faultsAre_error (major.faults fault read)⟩
  | ok found =>
      rcases found with ⟨number, after⟩
      refine reads_ite (fun _ => reads_refused) fun pointed => ?_
      have point : after.rest = '.' :: after.next.rest :=
        Cursor.rest_of_current (by simpa using pointed) (by decide)
      have digits := Cursor.rest_takeWhile isAsciiDigit cursor.skipSpaces
      rw [← takeVersionNumber_ok read, point] at digits
      have second : "%YAML".toList ++ ((cursor.takeWhile (· == ' ')).1 ++
          (cursor.skipSpaces.takeWhile isAsciiDigit).1 ++ ['.']) ++ after.next.rest <:+ text := by
        rw [← digits] at first
        simpa only [List.append_assoc, List.singleton_append] using first
      refine (reads_takeVersionNumber second ?_).bind fun _ within =>
        reads_ite (fun _ => reads_ok within) fun _ => reads_refused
      intro c member
      rcases List.mem_append.mp member with front | last
      · rcases List.mem_append.mp front with space | digit
        · exact .inl (spaces c space)
        · exact .inr (.inr (isDigit_of_mem_takeWhile digit))
      · exact .inr (.inl (List.mem_singleton.mp last))

theorem reads_takeDirective (inside : cursor.In text) (marked : cursor.current = '%') :
    Reads text Prod.snd (takeDirective cursor) := by
  have mark := Cursor.rest_of_current marked (by decide)
  have named := Cursor.rest_takeWhile isNameChar cursor.next
  simp only [takeDirective]
  refine reads_ite (fun _ => reads_refused) fun _ => ?_
  refine Reads.bind (?_ : Reads text Prod.snd _) fun _ within =>
    (reads_takeLineEnd within).bind fun _ within => reads_ok within
  split
  · rename_i version
    apply reads_takeVersion
    have name : (cursor.next.takeWhile isNameChar).1 = "YAML".toList := by
      rw [← version, String.toList_ofList]
    rw [name] at named
    rw [Cursor.In, mark, ← named] at inside
    exact inside
  · exact reads_takeHandleMeaning (inside.next.skip _)
  · exact reads_ok ((inside.next.skip _).skipWhile _)

end Names

section Quotes

variable {text : List Char} {cursor : Cursor}

/-! ## Quoted scalars -/

theorem reads_takeQuotedBreaks (fuel : Nat) (reversed : List Char) (inside : cursor.In text) :
    Reads text Prod.snd (takeQuotedBreaks fuel reversed cursor) := by
  induction fuel generalizing reversed cursor with
  | zero => exact reads_refused
  | succ fuel ih =>
      simp only [takeQuotedBreaks]
      refine reads_ite (fun _ => reads_refused) fun _ => ?_
      exact reads_ite (fun _ => ih _ (inside.skipWhile _).takeBreak) fun _ =>
        reads_ok (inside.skipWhile _)

theorem reads_takeBreaksInQuotes (reversed : List Char) (inside : cursor.In text) :
    Reads text Prod.snd (takeBreaksInQuotes reversed cursor) :=
  reads_takeQuotedBreaks _ reversed inside

theorem reads_takeQuotedSpaces (reversed : List Char) (inside : cursor.In text) :
    Reads text Prod.snd (takeQuotedSpaces reversed cursor) :=
  reads_ite (fun _ => reads_refused) fun _ =>
    reads_ite
      (fun _ => (reads_takeBreaksInQuotes [] (inside.skip _).takeBreak).bind fun _ within =>
        reads_ok within)
      fun _ => reads_ok (inside.skip _)

/-- Continues a hexadecimal number with a digit. -/
theorem hexNumber?_continue {digits : List Char} {start number : Nat}
    (denotes : digits.foldl (fun total c => do return (← total) * 16 + (← hexDigit? c))
      (some start) = some number) :
    (∀ c ∈ digits, (hexDigit? c).isSome = true) ∧ number < (start + 1) * 16 ^ digits.length := by
  induction digits generalizing start with
  | nil =>
      cases denotes
      exact ⟨List.forall_mem_nil _, by simp⟩
  | cons c digits ih =>
      rw [List.foldl_cons] at denotes
      cases found : hexDigit? c with
      | none =>
          have stuck : digits.foldl (fun total c => do return (← total) * 16 + (← hexDigit? c))
              none = none := by
            clear ih denotes
            induction digits with
            | nil => rfl
            | cons d digits ih => exact ih
          rw [found] at denotes
          cases stuck.symm.trans denotes
      | some digit =>
          rw [found] at denotes
          have small : digit < 16 := of_decide_eq_true (Option.filter_eq_some_iff.mp found).2
          rcases ih denotes with ⟨others, bounded⟩
          constructor
          · rw [List.forall_mem_cons]
            exact ⟨by rw [found]; rfl, others⟩
          · have larger : (start * 16 + digit + 1) * 16 ^ digits.length ≤
                (start + 1) * 16 * 16 ^ digits.length :=
              Nat.mul_le_mul_right _ (by omega)
            rw [List.length_cons, Nat.pow_succ', ← Nat.mul_assoc]
            omega

theorem of_hexNumber? {digits : List Char} {number : Nat}
    (denotes : hexNumber? digits = some number) :
    (∀ c ∈ digits, (hexDigit? c).isSome = true) ∧ number < 16 ^ digits.length := by
  have found := hexNumber?_continue denotes
  simpa using found

/-- The characters of an escape by number, which are all there. -/
theorem exists_digits {width number : Nat}
    (denotes : hexNumber? ((List.range width).map fun i => cursor.peek (i + 1)) = some number) :
    (List.range width).map (fun i => cursor.peek (i + 1)) = (cursor.rest.drop 1).take width := by
  have hexadecimal := (of_hexNumber? denotes).1
  apply List.ext_getElem?
  intro i
  by_cases inside : i < width
  · have found : (hexDigit? (cursor.peek (i + 1))).isSome = true :=
      hexadecimal _ (List.mem_map.mpr ⟨i, List.mem_range.mpr inside, rfl⟩)
    cases here : cursor.rest[i + 1]? with
    | none =>
        rw [Cursor.peek, List.getD_eq_getElem?_getD, here] at found
        cases found
    | some c =>
        have peeked : cursor.peek (i + 1) = c := by
          rw [Cursor.peek, List.getD_eq_getElem?_getD, here]
          rfl
        simp [inside, peeked, here]
  · have outside : width ≤ i := Nat.le_of_not_lt inside
    rw [List.getElem?_eq_none (by simpa using outside), List.getElem?_eq_none]
    exact (List.length_take_le _ _).trans outside

/-- An escape by number has two, four or eight digits. -/
theorem escapeWidth?_cases {c : Char} {width : Nat} (numbered : escapeWidth? c = some width) :
    width = 2 ∨ width = 4 ∨ c = 'U' ∧ width = 8 := by
  rw [escapeWidth?] at numbered
  split at numbered
  · cases numbered
    exact .inl rfl
  · split at numbered
    · cases numbered
      exact .inr (.inl rfl)
    · split at numbered
      · rename_i long
        cases numbered
        exact .inr (.inr ⟨beq_iff_eq.mp long, rfl⟩)
      · cases numbered

/-- Only an escape with eight digits can be by a number that is too high. -/
theorem excess_of_escape {width number : Nat} (written : '\\' :: cursor.rest <:+ text)
    (numbered : escapeWidth? cursor.current = some width)
    (denotes : hexNumber? ((List.range width).map fun i => cursor.peek (i + 1)) = some number)
    (high : 0x10ffff < number) :
    Excess text (if 0x7fffffff < number then .tooLarge else .badValue) := by
  have bounded := (of_hexNumber? denotes).2
  rw [List.length_map, List.length_range] at bounded
  rcases escapeWidth?_cases numbered with rfl | rfl | ⟨long, rfl⟩
  · omega
  · omega
  · have digits := exists_digits denotes
    have counted := congrArg List.length digits
    rw [List.length_map, List.length_range] at counted
    rw [digits] at denotes
    rw [Cursor.rest_of_current long (by decide)] at written denotes counted
    rw [List.drop_succ_cons, List.drop_zero] at denotes counted
    have front : '\\' :: 'U' :: cursor.next.rest.take 8 <+:
        '\\' :: 'U' :: cursor.next.rest := by
      rw [List.cons_prefix_cons, List.cons_prefix_cons]
      exact ⟨rfl, rfl, List.take_prefix 8 _⟩
    exact .escape (front.isInfix.trans written.isInfix) counted.symm denotes high rfl

theorem reads_takeEscape (reversed : List Char) (written : '\\' :: cursor.rest <:+ text) :
    Reads text Prod.snd (takeEscape reversed cursor) := by
  have inside : cursor.In text := (List.suffix_cons _ _).trans written
  simp only [takeEscape]
  split
  · exact reads_ok inside.next
  · rename_i width unescaped numbered
    split
    · rename_i number denotes
      by_cases high : 0x10ffff < number
      · have failed : charOfNumber number =
            .error (if 0x7fffffff < number then .tooLarge else .badValue) := by
          rw [charOfNumber]
          split <;> rfl
        rw [failed]
        exact reads_excess (excess_of_escape written numbered denotes high)
      · have made : charOfNumber number = .ok (Char.ofNat number) := by
          rw [charOfNumber, if_neg (by omega), if_neg high]
        rw [made]
        exact reads_ok (inside.skip _)
    · exact reads_refused
  · exact reads_ite (fun _ => reads_takeBreaksInQuotes reversed inside.takeBreak) fun _ =>
      reads_refused

theorem reads_takeQuotedText (double : Bool) (fuel : Nat) (reversed : List Char)
    (inside : cursor.In text) :
    Reads text Prod.snd (takeQuotedText double fuel reversed cursor) := by
  induction fuel generalizing reversed cursor with
  | zero => exact reads_refused
  | succ fuel ih =>
      simp only [takeQuotedText]
      refine reads_ite (fun _ => (reads_takeQuotedSpaces _ inside).bind fun _ => ih _) fun _ => ?_
      refine reads_ite (fun _ => ?_) fun _ => ?_
      · refine reads_ite (fun _ => reads_ok inside.next) fun _ =>
          reads_ite (fun escaped => ?_) fun _ => ih _ inside.next
        have mark := Cursor.rest_of_current (beq_iff_eq.mp escaped) (by decide)
        rw [Cursor.In, mark] at inside
        exact (reads_takeEscape _ inside).bind fun _ => ih _
      · exact reads_ite
          (fun _ => reads_ite (fun _ => ih _ (inside.skip 2)) fun _ => reads_ok inside.next)
          fun _ => ih _ inside.next

theorem reads_takeQuoted (inside : cursor.In text) : Reads text Prod.snd (takeQuoted cursor) :=
  (reads_takeQuotedText _ _ _ inside.next).bind fun _ within => reads_ok within

end Quotes

section Scalars

variable {text : List Char} {cursor : Cursor}

/-! ## Block scalars and plain scalars -/

theorem reads_takeIncrement (inside : cursor.In text) :
    Reads text Prod.snd (takeIncrement cursor) :=
  reads_ite (fun _ => reads_refused) fun _ =>
    reads_ite (fun _ => reads_ok inside.next) fun _ => reads_ok inside

theorem reads_takeBlockHeader (inside : cursor.In text) :
    Reads text Prod.snd (takeBlockHeader cursor) := by
  rw [takeBlockHeader]
  refine Reads.bind (?_ : Reads text Prod.snd _) fun _ within =>
    reads_ite (fun _ => (reads_takeLineEnd within).bind fun _ within => reads_ok within)
      fun _ => reads_refused
  split
  · exact (reads_takeIncrement inside.next).bind fun _ within => reads_ok within
  · refine (reads_takeIncrement inside).bind fun found within => ?_
    dsimp only
    split
    · exact reads_ok within.next
    · exact reads_ok within

theorem in_takeLeadingBreaks (fuel : Nat) (reversed : List Char) (widest : Nat)
    (inside : cursor.In text) : (takeLeadingBreaks fuel reversed widest cursor).2.2.In text := by
  induction fuel generalizing reversed widest cursor with
  | zero => exact inside
  | succ fuel ih =>
      simp only [takeLeadingBreaks]
      split
      · exact ih _ _ inside.next
      · split
        · exact ih _ _ inside.takeBreak
        · exact inside

theorem in_takeIndentedBreaks (indent fuel : Nat) (reversed : List Char)
    (inside : cursor.In text) : (takeIndentedBreaks indent fuel reversed cursor).2.In text := by
  induction fuel generalizing reversed cursor with
  | zero => exact inside
  | succ fuel ih =>
      simp only [takeIndentedBreaks]
      split
      · exact ih _ (Cursor.In.takeBreak (inside.skip _))
      · exact inside.skip _

theorem in_takeBlockLines (folded : Bool) (indent fuel : Nat) {read : BlockText}
    (inside : read.cursor.In text) : (takeBlockLines folded indent fuel read).cursor.In text := by
  induction fuel generalizing read with
  | zero => exact inside
  | succ fuel ih =>
      have after : (takeEmptyLines indent (read.cursor.takeWhile fun c =>
          !isLineEnd c).2.takeBreak.2).2.In text :=
        in_takeIndentedBreaks indent _ [] (inside.takeWhile _).takeBreak
      have either {condition : Prop} [Decidable condition] {first second : BlockText}
          (positive : first.cursor.In text) (negative : second.cursor.In text) :
          (if condition then first else second).cursor.In text := by
        split
        · exact positive
        · exact negative
      simp only [takeBlockLines]
      refine either inside (either (ih ?_) ?_)
      · dsimp only
        exact after
      · dsimp only
        exact after

theorem reads_takeBlock (parentIndent : Int) (inside : cursor.In text) :
    Reads text Prod.snd (takeBlock parentIndent cursor) := by
  refine (reads_takeBlockHeader inside.next).bind fun found within => reads_ok ?_
  apply in_takeBlockLines
  dsimp only
  split
  · exact in_takeIndentedBreaks _ _ [] within
  · exact in_takeLeadingBreaks _ _ _ within

theorem in_takePlainBreaks (fuel : Nat) (reversed : List Char) (inside : cursor.In text) :
    (takePlainBreaks fuel reversed cursor).2.In text := by
  induction fuel generalizing reversed cursor with
  | zero => exact inside
  | succ fuel ih =>
      simp only [takePlainBreaks]
      split
      · exact ih _ inside.next
      · split
        · split
          · exact inside.takeBreak
          · exact ih _ inside.takeBreak
        · exact inside

theorem in_takePlainGap (inside : cursor.In text) : (takePlainGap cursor).cursor.In text := by
  have first := (inside.takeWhile (· == ' ')).takeBreak
  have breaks := in_takePlainBreaks ((cursor.takeWhile (· == ' ')).2.takeBreak.2.rest.length + 1) []
    first
  simp only [takePlainGap]
  split
  · split
    · exact first
    · split
      · rename_i found
        rw [found] at breaks
        exact breaks
      · rename_i found
        rw [found] at breaks
        exact breaks
  · exact inside.takeWhile _

theorem in_takePlainWords (inFlow : Bool) (indent : Int) (fuel : Nat) (gap : List Char)
    {read : PlainText} (inside : read.cursor.In text) :
    (takePlainWords inFlow indent fuel gap read).cursor.In text := by
  induction fuel generalizing gap read with
  | zero => exact inside
  | succ fuel ih =>
      simp only [takePlainWords]
      have after := in_takePlainGap (inside.skip (plainWordLength inFlow read.cursor.rest))
      split
      · exact inside
      · split
        · exact after
        · split
          · exact after
          · exact ih _ after

theorem in_takePlain (inFlow : Bool) (indent : Int) (inside : cursor.In text) :
    (takePlain inFlow indent cursor).cursor.In text :=
  in_takePlainWords inFlow _ _ [] inside

end Scalars

/-! ## Tokens -/

namespace Scan

variable {text : List Char} {scan : Scan}

/-- The scan is at a place in the text. -/
def In (text : List Char) (scan : Scan) : Prop := scan.cursor.In text

theorem cursor_insertAt (position : Nat) (token : Token) (scan : Scan) :
    (scan.insertAt position token).cursor = scan.cursor := rfl

theorem cursor_openBlock {column : Nat} {opened : Scan}
    (found : scan.openBlock column = some opened) : opened.cursor = scan.cursor := by
  rw [openBlock] at found
  split at found
  · cases found
    rfl
  · cases found

theorem cursor_closeBlocks (column : Int) (scan : Scan) :
    (scan.closeBlocks column).cursor = scan.cursor := by
  have closing (outer : List Int) (scan : Scan) :
      (closeBlocks.close column outer scan).cursor = scan.cursor := by
    induction outer generalizing scan with
    | nil => rfl
    | cons indent outer ih =>
        rw [closeBlocks.close]
        split
        · exact ih _
        · rfl
  rw [closeBlocks]
  split
  · rfl
  · exact closing _ _

theorem reads_dropStaleKeys (inside : scan.In text) :
    Reads text Scan.cursor scan.dropStaleKeys :=
  reads_ite (fun _ => reads_refused) fun _ => reads_ok inside

theorem reads_dropKey (inside : scan.In text) : Reads text Scan.cursor scan.dropKey :=
  reads_ite (fun _ => reads_refused) fun _ => reads_ok inside

theorem reads_saveKey (inside : scan.In text) : Reads text Scan.cursor scan.saveKey := by
  rw [saveKey]
  split
  · exact (reads_dropKey inside).bind fun _ within => reads_ok within
  · exact reads_ok inside

theorem in_skipGap (fuel : Nat) (inside : scan.In text) : (scan.skipGap fuel).In text := by
  induction fuel generalizing scan with
  | zero => exact inside
  | succ fuel ih =>
      have moved := Cursor.In.skipComment (Cursor.In.skipSpaces inside)
      simp only [skipGap]
      split
      · exact ih (Cursor.In.takeBreak moved)
      · exact moved

variable {read : Except Fault (Token × Cursor)}

theorem reads_separator (inside : scan.In text) (reads : Reads text Prod.snd read) :
    Reads text Scan.cursor (scan.separator read) := by
  have closed : (scan.closeBlocks (-1)).In text := by
    rw [In, cursor_closeBlocks]
    exact inside
  exact (reads_dropKey closed).bind fun _ _ => reads.bind fun _ within => reads_ok within

theorem reads_content (inside : scan.In text) (reads : Reads text Prod.snd read) :
    Reads text Scan.cursor (scan.content read) :=
  (reads_saveKey inside).bind fun _ _ => reads.bind fun _ within => reads_ok within

theorem reads_openFlow (token : Token) (inside : scan.In text) :
    Reads text Scan.cursor (scan.openFlow token) :=
  (reads_saveKey inside).bind fun _ within => reads_ok (Cursor.In.next within)

theorem reads_closeFlow (token : Token) (inside : scan.In text) :
    Reads text Scan.cursor (scan.closeFlow token) :=
  (reads_dropKey inside).bind fun _ within => reads_ok (Cursor.In.next within)

theorem reads_flowEntry (inside : scan.In text) : Reads text Scan.cursor scan.flowEntry :=
  (reads_dropKey inside).bind fun _ within => reads_ok (Cursor.In.next within)

theorem reads_startBlock (opening : Token) (inside : scan.In text) :
    Reads text Scan.cursor (scan.startBlock opening) := by
  rw [startBlock]
  refine reads_ite (fun _ => reads_ok inside) fun _ => ?_
  refine reads_ite (fun _ => reads_refused) fun _ => ?_
  split
  · rename_i opened found
    refine reads_ok ?_
    rw [emit, cursor_openBlock found]
    exact inside
  · exact reads_ok inside

theorem reads_blockEntry (inside : scan.In text) : Reads text Scan.cursor scan.blockEntry :=
  (reads_startBlock _ inside).bind fun _ within => (reads_dropKey within).bind fun _ within =>
    reads_ok (Cursor.In.next within)

theorem reads_explicitKey (inside : scan.In text) : Reads text Scan.cursor scan.explicitKey :=
  (reads_startBlock _ inside).bind fun _ within => (reads_dropKey within).bind fun _ within =>
    reads_ok (Cursor.In.next within)

theorem reads_value (inside : scan.In text) : Reads text Scan.cursor scan.value := by
  have finished {state : Scan} (within : state.In text) : Reads text Scan.cursor
      (pure { state.emit .value with cursor := state.cursor.next }) :=
    reads_ok (Cursor.In.next within)
  rw [value]
  split
  · refine finished ?_
    rw [In]
    dsimp only
    split
    · exact inside
    · split
      · rename_i opened found
        rw [cursor_insertAt, cursor_openBlock found]
        exact inside
      · exact inside
  · refine (reads_startBlock _ inside).bind fun _ within => ?_
    refine Reads.bind (reads_dropKey ?_) fun _ within => finished within
    exact within

theorem reads_blockScalar (inside : scan.In text) : Reads text Scan.cursor scan.blockScalar :=
  (reads_dropKey inside).bind fun _ within => (reads_takeBlock _ within).bind fun _ within =>
    reads_ok within

theorem reads_plainScalar (inside : scan.In text) : Reads text Scan.cursor scan.plainScalar :=
  (reads_saveKey inside).bind fun _ within => reads_ok (in_takePlain _ _ within)

theorem reads_finish (inside : scan.In text) : Reads text Scan.cursor scan.finish := by
  have closed : (scan.closeBlocks (-1)).In text := by
    rw [In, cursor_closeBlocks]
    exact inside
  exact (reads_dropKey closed).bind fun _ within => reads_ok within

theorem reads_named {image : String → Token} (inside : scan.In text) :
    Reads text Prod.snd ((takeName scan.cursor).map fun (name, after) => (image name, after)) :=
  (reads_takeName inside).bind fun _ within => reads_ok within

theorem reads_token {c : Char} (inside : scan.In text) (found : scan.cursor.current = c) :
    Reads text Scan.cursor (scan.token c) := by
  rw [token]
  refine reads_ite (fun percent => ?_) fun _ => ?_
  · have marked : scan.cursor.current = '%' :=
      found.trans (beq_iff_eq.mp (Bool.and_eq_true_iff.mp percent).1)
    exact reads_separator inside (reads_takeDirective inside marked)
  refine reads_ite (fun _ => ?_) fun _ => ?_
  · exact reads_separator inside (reads_ok (Cursor.In.skip inside 3))
  refine reads_ite (fun _ => reads_openFlow _ inside) fun _ => ?_
  refine reads_ite (fun _ => reads_openFlow _ inside) fun _ => ?_
  refine reads_ite (fun _ => reads_closeFlow _ inside) fun _ => ?_
  refine reads_ite (fun _ => reads_closeFlow _ inside) fun _ => ?_
  refine reads_ite (fun _ => reads_flowEntry inside) fun _ => ?_
  refine reads_ite (fun _ => reads_blockEntry inside) fun _ => ?_
  refine reads_ite (fun _ => reads_explicitKey inside) fun _ => ?_
  refine reads_ite (fun _ => reads_value inside) fun _ => ?_
  refine reads_ite (fun _ => reads_content inside (reads_named inside)) fun _ => ?_
  refine reads_ite (fun _ => reads_content inside (reads_named inside)) fun _ => ?_
  refine reads_ite (fun _ => reads_content inside (reads_takeTag inside)) fun _ => ?_
  refine reads_ite (fun _ => reads_blockScalar inside) fun _ => ?_
  refine reads_ite (fun _ => reads_content inside (reads_takeQuoted inside)) fun _ => ?_
  exact reads_ite (fun _ => reads_plainScalar inside) fun _ => reads_refused

theorem reads_step (inside : scan.In text) :
    Reads text (fun found => found.1.cursor) scan.step := by
  rw [step]
  refine (reads_dropStaleKeys (in_skipGap _ inside)).bind fun fresh within => ?_
  have closed : (fresh.closeBlocks fresh.cursor.column).In text := by
    rw [In, cursor_closeBlocks]
    exact within
  refine reads_ite (fun _ => ?_) fun _ => ?_
  · exact (reads_finish closed).bind fun _ within => reads_ok within
  · exact (reads_token closed rfl).bind fun _ within => reads_ok within

seal Scan.step in
/-- One step of a run. The step itself is kept closed, because nothing is known of its form here. -/
theorem run_succ (fuel : Nat) (scan : Scan) : scan.run (fuel + 1) =
    match scan.step with
    | .error fault => ⟨scan.reversed.reverse.take scan.settled, fault⟩
    | .ok (scan, true) => ⟨scan.reversed.reverse, .malformedConfig⟩
    | .ok (scan, false) => scan.run fuel := rfl

/-- The tokens of a document end with its end, or where it is refused. -/
theorem unscanned_run (fuel : Nat) (inside : scan.In text) :
    Unscanned text (scan.run fuel).ending := by
  induction fuel generalizing scan with
  | zero => exact .inl rfl
  | succ fuel ih =>
      have steps := reads_step inside
      rw [run_succ]
      cases stepped : scan.step with
      | error fault => exact steps.faults fault stepped
      | ok found =>
          rcases found with ⟨later, ended⟩
          cases ended with
          | true => exact .inl rfl
          | false => exact ih (steps.inside _ stepped)

end Scan

/-- Where the tokens of a text end, the text has no form or is beyond the limits, if it is not just
complete. -/
theorem unscanned_tokensOf (text : List Char) : Unscanned text (tokensOf text).ending := by
  have start : (Cursor.start text).In text := List.suffix_rfl
  rw [tokensOf]
  split
  · apply Scan.unscanned_run
    split
    · exact Cursor.In.next start
    · exact start
  · exact .inl rfl

end SlashBot.Yaml

import SlashBot.Proofs.Scanning

/-!
# Scanning lines of plain words

The tokens of documents whose scalars are words that mark nothing: keys with a colon behind them,
and the items of lists. Each piece of a line leads from one state of the scan to the next.
-/

namespace SlashBot.Yaml

/-! ## Words -/

/-- A character that stands in words only: a letter, a digit or a sign. -/
def isWordChar (c : Char) : Bool :=
  c.isAlphanum || c == '+' || c == '-'

/-- A word that can be a plain scalar or a simple key. -/
structure IsWord (word : List Char) : Prop where
  chars : ∀ c ∈ word, isWordChar c = true
  filled : word ≠ []
  solid : word ≠ ['-']
  short : word.length ≤ 1024

variable {c d : Char} {word text : List Char}

instance : Decidable (IsWord word) :=
  decidable_of_iff
    (word.all isWordChar = true ∧ word ≠ [] ∧ word ≠ ['-'] ∧ word.length ≤ 1024)
    ⟨fun ⟨chars, filled, solid, short⟩ => ⟨List.all_eq_true.mp chars, filled, solid, short⟩,
      fun fits => ⟨List.all_eq_true.mpr fits.chars, fits.filled, fits.solid, fits.short⟩⟩

theorem IsWord.starts (fits : IsWord word) :
    ∃ c rest, word = c :: rest ∧ (c = '-' → rest ≠ []) := by
  obtain ⟨c, rest, rfl⟩ := List.exists_cons_of_ne_nil fits.filled
  refine ⟨c, rest, rfl, ?_⟩
  rintro rfl rfl
  exact fits.solid rfl

theorem toNat_of_isWordChar (fits : isWordChar c = true) :
    43 = c.toNat ∨ 45 = c.toNat ∨ 48 ≤ c.toNat ∧ c.toNat ≤ 57 ∨ 65 ≤ c.toNat ∧ c.toNat ≤ 90 ∨
      97 ≤ c.toNat ∧ c.toNat ≤ 122 := by
  rw [isWordChar, Bool.or_eq_true, Bool.or_eq_true, beq_iff_eq, beq_iff_eq] at fits
  rcases fits with (alphanumeric | rfl) | rfl
  · have ranges : c.isAlphanum = (decide (65 ≤ c.val ∧ c.val ≤ 90) ||
        (97 ≤ c.val && c.val ≤ 122) || (48 ≤ c.val && c.val ≤ 57)) := rfl
    simp only [ranges, Bool.or_eq_true, Bool.and_eq_true, decide_eq_true_eq,
      UInt32.le_iff_toNat_le, UInt32.reduceToNat] at alphanumeric
    have code : c.val.toNat = c.toNat := rfl
    omega
  · exact .inl rfl
  · exact .inr (.inl rfl)

theorem beq_of_isWordChar (fits : isWordChar c = true) (other : isWordChar d = false) :
    (c == d) = false := by
  rw [beq_eq_false_iff_ne]
  rintro rfl
  rw [fits] at other
  cases other

theorem toNat_beq_of_isWordChar (fits : isWordChar c = true) (code : Nat)
    (apart : 122 < code ∨ code = 96) : (c.toNat == code) = false := by
  have bounds := toNat_of_isWordChar fits
  rw [beq_eq_false_iff_ne]
  omega

theorem isBreak_of_isWordChar (fits : isWordChar c = true) : isBreak c = false := by
  rw [isBreak, beq_of_isWordChar fits (d := '\n') (by decide),
    beq_of_isWordChar fits (d := '\r') (by decide), toNat_beq_of_isWordChar fits 0x85 (by decide),
    toNat_beq_of_isWordChar fits 0x2028 (by decide),
    toNat_beq_of_isWordChar fits 0x2029 (by decide)]
  rfl

theorem isGap_of_isWordChar (fits : isWordChar c = true) : isGap c = false := by
  rw [isGap, isSpaceOrEnd, isLineEnd, isBreak_of_isWordChar fits,
    beq_of_isWordChar fits (d := '\t') (by decide), beq_of_isWordChar fits (d := ' ') (by decide),
    beq_of_isWordChar fits (d := endMark) (by decide)]
  rfl

theorem isFlowMark_of_isWordChar (fits : isWordChar c = true) : isFlowMark c = false := by
  rw [isFlowMark, beq_of_isWordChar fits (d := ',') (by decide),
    beq_of_isWordChar fits (d := '[') (by decide), beq_of_isWordChar fits (d := ']') (by decide),
    toNat_beq_of_isWordChar fits 123 (by decide), toNat_beq_of_isWordChar fits 125 (by decide)]
  rfl

/-! ## Moving over a line -/

/-- A character that takes one column. -/
def isColumn (c : Char) : Bool :=
  !isBreak c && c.toNat != 0xfeff

theorem isColumn_of_isWordChar (fits : isWordChar c = true) : isColumn c = true := by
  rw [isColumn, isBreak_of_isWordChar fits, bne, toNat_beq_of_isWordChar fits 0xfeff (by decide)]
  rfl

theorem Cursor.current_cons (c : Char) (rest : List Char) (index line column : Nat) :
    Cursor.current ⟨c :: rest, index, line, column⟩ = c := rfl

theorem Cursor.takeBreak_newline (rest : List Char) (index line column : Nat) :
    Cursor.takeBreak ⟨'\n' :: rest, index, line, column⟩ =
      (['\n'], ⟨rest, index + 1, line + 1, 0⟩) := by
  have moved : Cursor.next ⟨'\n' :: rest, index, line, column⟩ = ⟨rest, index + 1, line + 1, 0⟩ :=
    rfl
  simp [Cursor.takeBreak, Cursor.current_cons, moved]

theorem Cursor.next_column (fits : isColumn c = true) (rest : List Char) (index line column : Nat) :
    Cursor.next ⟨c :: rest, index, line, column⟩ = ⟨rest, index + 1, line, column + 1⟩ := by
  rw [isColumn, Bool.and_eq_true, Bool.not_eq_true', bne_iff_ne] at fits
  simp [Cursor.next, fits.1, fits.2]

theorem Cursor.skip_columns {front : List Char} (fits : ∀ c ∈ front, isColumn c = true)
    (rest : List Char) (index line column : Nat) :
    Cursor.skip front.length ⟨front ++ rest, index, line, column⟩ =
      ⟨rest, index + front.length, line, column + front.length⟩ := by
  induction front generalizing index column with
  | nil => rfl
  | cons c front ih =>
      obtain ⟨first, others⟩ := List.forall_mem_cons.mp fits
      rw [List.length_cons, Cursor.skip, List.cons_append, Cursor.next_column first, ih others]
      simp only [Nat.add_assoc, Nat.add_comm 1]

/-- The text starts with something that is no gap, or it is at its end. -/
def Begins (text : List Char) : Prop :=
  ∀ c ∈ text.head?, c ≠ ' ' ∧ c ≠ '#' ∧ isBreak c = false

theorem begins_nil : Begins [] := nofun

theorem begins_cons {c : Char} (space : c ≠ ' ') (comment : c ≠ '#') (same : isBreak c = false)
    (rest : List Char) : Begins (c :: rest) := by
  intro d first
  cases first
  exact ⟨space, comment, same⟩

theorem IsWord.begins (fits : IsWord word) (rest : List Char) : Begins (word ++ rest) := by
  obtain ⟨c, others, rfl, -⟩ := fits.starts
  have first : isWordChar c = true := fits.chars c (.head _)
  refine begins_cons ?_ ?_ (isBreak_of_isWordChar first) _
  · exact ne_of_beq_false (beq_of_isWordChar first (by decide))
  · exact ne_of_beq_false (beq_of_isWordChar first (by decide))

namespace Begins

variable {rest : List Char} {index line column : Nat}

theorem current_ne_comment (begins : Begins rest) :
    (Cursor.current ⟨rest, index, line, column⟩ == '#') = false := by
  cases rest with
  | nil => rfl
  | cons c rest => exact beq_false_of_ne (begins c rfl).2.1

theorem current_ne_space (begins : Begins rest) :
    (Cursor.current ⟨rest, index, line, column⟩ == ' ') = false := by
  cases rest with
  | nil => rfl
  | cons c rest => exact beq_false_of_ne (begins c rfl).1

theorem isBreak_current (begins : Begins rest) :
    isBreak (Cursor.current ⟨rest, index, line, column⟩) = false := by
  cases rest with
  | nil => rfl
  | cons c rest => exact (begins c rfl).2.2

theorem takeWhile_space (begins : Begins rest) : rest.takeWhile (· == ' ') = [] := by
  cases rest with
  | nil => rfl
  | cons c rest => simp [(begins c rfl).1]

end Begins

theorem isColumn_of_mem_replicate (count : Nat) :
    ∀ c ∈ List.replicate count ' ', isColumn c = true := by
  intro c member
  rw [List.eq_of_mem_replicate member]
  decide

/-- The spaces in front of something are passed over. -/
theorem Cursor.takeWhile_spaces {rest : List Char} (begins : Begins rest)
    (count index line column : Nat) :
    Cursor.takeWhile (· == ' ') ⟨List.replicate count ' ' ++ rest, index, line, column⟩ =
      (List.replicate count ' ', ⟨rest, index + count, line, column + count⟩) := by
  have spaces : (List.replicate count ' ' ++ rest).takeWhile (· == ' ') =
      List.replicate count ' ' := by
    rw [List.takeWhile_append_of_pos (by simp), begins.takeWhile_space, List.append_nil]
  have skipped :=
    Cursor.skip_columns (isColumn_of_mem_replicate count) rest index line column
  rw [List.length_replicate] at skipped
  simp [Cursor.takeWhile, spaces, skipped]

/-! ## Plain words -/

theorem plainWordLength_append (inFlow : Bool) {rest : List Char}
    (chars : ∀ c ∈ word, isWordChar c = true) (ends : plainWordLength inFlow rest = 0) :
    plainWordLength inFlow (word ++ rest) = word.length := by
  induction word with
  | nil => exact ends
  | cons c word ih =>
      obtain ⟨first, others⟩ := List.forall_mem_cons.mp chars
      rw [List.cons_append, plainWordLength]
      simp [isGap_of_isWordChar first, isFlowMark_of_isWordChar first,
        beq_of_isWordChar first (d := ':') (by decide),
        beq_of_isWordChar first (d := '?') (by decide), ih others]

/-- The line break behind a word is taken into the scalar only if the next line goes on with it. -/
theorem takePlainBreaks_spaces {rest : List Char} (begins : Begins rest) (count fuel : Nat)
    (enough : count < fuel) (index line column : Nat) :
    takePlainBreaks fuel [] ⟨List.replicate count ' ' ++ rest, index, line, column⟩ =
      (some [], ⟨rest, index + count, line, column + count⟩) := by
  induction count generalizing fuel index column with
  | zero =>
      obtain ⟨fuel, rfl⟩ := Nat.exists_eq_succ_of_ne_zero (by omega : fuel ≠ 0)
      simp [takePlainBreaks, begins.current_ne_space, begins.isBreak_current]
  | succ count ih =>
      obtain ⟨fuel, rfl⟩ := Nat.exists_eq_succ_of_ne_zero (by omega : fuel ≠ 0)
      have moved := Cursor.next_column (c := ' ') (by decide)
        (List.replicate count ' ' ++ rest) index line column
      rw [List.replicate_succ, List.cons_append, takePlainBreaks, Cursor.current_cons,
        if_pos (beq_self_eq_true ' '), moved, ih fuel (by omega)]
      simp only [Nat.add_assoc, Nat.add_comm 1]

/-- Nothing is taken behind a word that a mark ends. -/
theorem takePlainGap_mark {rest : List Char} (begins : Begins rest) (index line column : Nat) :
    takePlainGap ⟨rest, index, line, column⟩ = ⟨none, ⟨rest, index, line, column⟩, false⟩ := by
  have spaces := Cursor.takeWhile_spaces begins 0 index line column
  simp only [List.replicate_zero, List.nil_append, Nat.add_zero] at spaces
  simp [takePlainGap, spaces, begins.isBreak_current]

/-- A line that starts with a space or with nothing is no separator of documents. -/
theorem Cursor.atSeparator_indented {rest : List Char} {count : Nat}
    (indented : 0 < count ∨ rest = []) (index line column : Nat) :
    Cursor.atSeparator ⟨List.replicate count ' ' ++ rest, index, line, column⟩ = false := by
  cases count with
  | zero =>
      have done : rest = [] := indented.resolve_left (by omega)
      rw [done]
      rfl
  | succ count => simp [Cursor.atSeparator, List.replicate_succ]

/-- Behind a word at the end of its line the next line is looked at. -/
theorem takePlainGap_break {rest : List Char} (begins : Begins rest) (count : Nat)
    (indented : 0 < count ∨ rest = []) (index line column : Nat) :
    takePlainGap ⟨'\n' :: (List.replicate count ' ' ++ rest), index, line, column⟩ =
      ⟨some [' '], ⟨rest, index + 1 + count, line + 1, count⟩, true⟩ := by
  have breaks := takePlainBreaks_spaces begins count (count + rest.length + 1) (by omega)
    (index + 1) (line + 1) 0
  rw [Nat.zero_add] at breaks
  simp [takePlainGap, Cursor.takeWhile, Cursor.skip, Cursor.current_cons,
    show isBreak '\n' = true from rfl, Cursor.takeBreak_newline,
    Cursor.atSeparator_indented indented, breaks]

/-- What becomes of a plain scalar that starts with a word, if the gap behind the word ends it. -/
theorem takePlain_word {rest : List Char} {gap : PlainGap} (inFlow : Bool) (indent : Int)
    (fits : IsWord word) (ends : plainWordLength inFlow rest = 0) (index line column : Nat)
    (found : takePlainGap ⟨rest, index + word.length, line, column + word.length⟩ = gap)
    (closed : gap.folded = none ∨ inFlow = false ∧ (gap.cursor.column : Int) ≤ indent) :
    takePlain inFlow indent ⟨word ++ rest, index, line, column⟩ =
      ⟨word.reverse, gap.cursor, gap.lineEnded⟩ := by
  have columns : ∀ c ∈ word, isColumn c = true :=
    fun c member => isColumn_of_isWordChar (fits.chars c member)
  have filled : word.length ≠ 0 := by
    obtain ⟨c, others, rfl, -⟩ := fits.starts
    exact Nat.succ_ne_zero _
  rw [takePlain, takePlainWords]
  simp only [plainWordLength_append inFlow fits.chars ends, (fits.begins rest).current_ne_comment,
    Cursor.skip_columns columns, found, List.take_left]
  rcases closed with none | ⟨rfl, outside⟩
  · simp [filled, none]
  · cases folded : gap.folded with
    | none => simp [filled]
    | some folded => simp [filled, Int.lt_add_one_of_le outside]

/-- A plain scalar that is a word with a mark behind it. -/
theorem takePlain_mark {rest : List Char} (inFlow : Bool) (indent : Int) (fits : IsWord word)
    (begins : Begins rest) (ends : plainWordLength inFlow rest = 0) (index line column : Nat) :
    takePlain inFlow indent ⟨word ++ rest, index, line, column⟩ =
      ⟨word.reverse, ⟨rest, index + word.length, line, column + word.length⟩, false⟩ :=
  takePlain_word inFlow indent fits ends index line column (takePlainGap_mark begins _ _ _)
    (.inl rfl)

/-- A plain scalar that is a word at the end of its line, with less indentation behind it. -/
theorem takePlain_break {rest : List Char} (indent : Int) (fits : IsWord word)
    (begins : Begins rest) (count : Nat) (indented : 0 < count ∨ rest = [])
    (outside : (count : Int) ≤ indent) (index line column : Nat) :
    takePlain false indent
        ⟨word ++ '\n' :: (List.replicate count ' ' ++ rest), index, line, column⟩ =
      ⟨word.reverse, ⟨rest, index + word.length + 1 + count, line + 1, count⟩, true⟩ :=
  takePlain_word false indent fits rfl index line column
    (takePlainGap_break begins count indented _ _ _) (.inr ⟨rfl, outside⟩)

namespace Scan

variable {scan next : Scan} {rest : List Char} {index line column : Nat}

/-! ## Steps of a scan -/

/-- From a state on the scan goes through to the end of the text and gives these tokens. Each step
takes something off the text. -/
inductive Gives : (scan : Scan) → (tokens : List Token) → Prop where
  | finish {scan last : Scan} (stepped : scan.step = .ok (last, true)) :
      Gives scan last.reversed.reverse
  | step {scan next : Scan} {tokens : List Token} (stepped : scan.step = .ok (next, false))
      (shorter : next.cursor.rest.length < scan.cursor.rest.length) (gives : Gives next tokens) :
      Gives scan tokens

theorem Gives.run_eq {tokens : List Token} (gives : scan.Gives tokens) (fuel : Nat)
    (enough : scan.cursor.rest.length < fuel) : scan.run fuel = ⟨tokens, .malformedConfig⟩ := by
  induction gives generalizing fuel with
  | finish stepped =>
      obtain ⟨fuel, rfl⟩ := Nat.exists_eq_succ_of_ne_zero (by omega : fuel ≠ 0)
      rw [run_succ, stepped]
  | step stepped shorter _ ih =>
      obtain ⟨fuel, rfl⟩ := Nat.exists_eq_succ_of_ne_zero (by omega : fuel ≠ 0)
      rw [run_succ, stepped]
      exact ih fuel (by omega)

/-- What the scan gives from the second state on, it gives from the first one on. -/
def Leads (scan next : Scan) : Prop :=
  ∀ tokens, next.Gives tokens → scan.Gives tokens

theorem Leads.trans {last : Scan} (first : scan.Leads next) (second : next.Leads last) :
    scan.Leads last :=
  fun tokens gives => first tokens (second tokens gives)

theorem leads_of_step (stepped : scan.step = .ok (next, false))
    (shorter : next.cursor.rest.length < scan.cursor.rest.length) : scan.Leads next :=
  fun _ gives => .step stepped shorter gives

theorem leads_of_step_eq (same : scan.step = next.step)
    (shorter : next.cursor.rest.length ≤ scan.cursor.rest.length) : scan.Leads next := by
  intro tokens gives
  cases gives with
  | finish stepped => exact .finish (same.trans stepped)
  | step stepped taken gives => exact .step (same.trans stepped) (by omega) gives

/-! ### Gaps -/

theorem skipGap_spaces (begins : Begins rest) (count fuel : Nat)
    (placed : scan.cursor = ⟨List.replicate count ' ' ++ rest, index, line, column⟩) :
    scan.skipGap (fuel + 1) =
      { scan with cursor := ⟨rest, index + count, line, column + count⟩ } := by
  rw [skipGap, placed, Cursor.skipSpaces, Cursor.skipWhile, Cursor.takeWhile_spaces begins,
    Cursor.skipComment, begins.current_ne_comment]
  simp [begins.isBreak_current]

theorem skipGap_begins (begins : Begins scan.cursor.rest) (fuel : Nat) :
    scan.skipGap (fuel + 1) = scan :=
  skipGap_spaces begins 0 fuel rfl

/-- After the end of a line outside brackets a key may start. -/
theorem skipGap_newline (begins : Begins rest) (count fuel : Nat)
    (placed : scan.cursor = ⟨'\n' :: (List.replicate count ' ' ++ rest), index, line, column⟩) :
    scan.skipGap (fuel + 2) =
      { scan with
        cursor := ⟨rest, index + 1 + count, line + 1, count⟩
        keyAllowed := scan.keyAllowed || !scan.inFlow } := by
  have stays : Cursor.skipSpaces ⟨'\n' :: (List.replicate count ' ' ++ rest), index, line, column⟩ =
      ⟨'\n' :: (List.replicate count ' ' ++ rest), index, line, column⟩ := rfl
  have moved := @skipGap_spaces
    { scan with
      cursor := ⟨List.replicate count ' ' ++ rest, index + 1, line + 1, 0⟩
      keyAllowed := scan.keyAllowed || !scan.inFlow } rest _ _ _ begins count fuel rfl
  rw [Nat.zero_add] at moved
  rw [skipGap, placed, stays, Cursor.skipComment, Cursor.current_cons]
  simp only [show ('\n' == '#') = false from rfl, Bool.false_eq_true, if_false,
    Cursor.current_cons, show isBreak '\n' = true from rfl, if_true, Cursor.takeBreak_newline]
  exact moved

/-- A gap belongs to the step behind it. -/
theorem step_of_skipGap (skipped : scan.skipGap (scan.cursor.rest.length + 1) = next)
    (begins : Begins next.cursor.rest) : scan.step = next.step := by
  rw [step, step, skipped, skipGap_begins begins]

theorem leads_spaces (begins : Begins rest) (count : Nat)
    (placed : scan.cursor = ⟨List.replicate count ' ' ++ rest, index, line, column⟩) :
    scan.Leads { scan with cursor := ⟨rest, index + count, line, column + count⟩ } := by
  refine leads_of_step_eq (step_of_skipGap ?_ begins) ?_
  · exact skipGap_spaces begins count _ placed
  · rw [placed]
    simp

theorem leads_newline (begins : Begins rest) (count : Nat)
    (placed : scan.cursor = ⟨'\n' :: (List.replicate count ' ' ++ rest), index, line, column⟩) :
    scan.Leads
      { scan with
        cursor := ⟨rest, index + 1 + count, line + 1, count⟩
        keyAllowed := scan.keyAllowed || !scan.inFlow } := by
  refine leads_of_step_eq (step_of_skipGap ?_ begins) ?_
  · rw [placed]
    exact skipGap_newline begins count _ placed
  · rw [placed]
    simp
    omega

/-! ### Keys that may have started -/

theorem closeBlocks_of_le {column : Int} (inside : scan.indent ≤ column) :
    scan.closeBlocks column = scan := by
  rw [closeBlocks]
  split
  · rfl
  · cases outer : scan.outer with
    | nil => rfl
    | cons indent outer => rw [closeBlocks.close, if_neg (by omega)]

/-- All keys that may have started have ended, and none of them was required. -/
def KeysFade (scan : Scan) : Prop :=
  ∀ key ∈ scan.keys, key.isStale scan.cursor = true ∧ key.required = false

theorem KeysFade.dropStaleKeys_eq (fade : scan.KeysFade) :
    scan.dropStaleKeys = .ok { scan with keys := [] } := by
  have none : (scan.keys.any fun key => key.isStale scan.cursor && key.required) = false := by
    simp only [List.any_eq_false, Bool.and_eq_true, not_and]
    intro key member _
    simp [(fade key member).2]
  have all : (scan.keys.filter fun key => !key.isStale scan.cursor) = [] := by
    simp only [List.filter_eq_nil_iff]
    intro key member
    simp [(fade key member).1]
  simp [dropStaleKeys, none, all]

/-! ### Tokens -/

theorem step_token {ready after : Scan} (begins : Begins scan.cursor.rest)
    (fresh : scan.dropStaleKeys = .ok ready)
    (stays : ready.closeBlocks ready.cursor.column = ready)
    (present : ready.cursor.current ≠ endMark)
    (taken : ready.token ready.cursor.current = .ok after) : scan.step = .ok (after, false) := by
  rw [step, skipGap_begins begins, fresh]
  simp only [bind, Except.bind, stays, beq_false_of_ne present, taken]
  rfl

/-- A word is no separator of documents. At the start of a line it is asked not to look like one. -/
def Inline (word : List Char) (column : Nat) : Prop :=
  0 < column ∨ word.head? ≠ some '-'

theorem isIndicator_of_isWordChar (fits : isWordChar c = true) (unsigned : c ≠ '-') :
    isIndicator c = false := by
  have listed : "-?:,[]\x7b\x7d#&*!|>'\"%@".toList.all
      (fun d => isWordChar d = false ∨ d = '-') = true := by
    decide
  rw [isIndicator, toNat_beq_of_isWordChar fits 96 (by decide), Bool.or_false, Bool.eq_false_iff,
    ne_eq, List.contains_iff_mem]
  intro member
  rcases of_decide_eq_true (List.all_eq_true.mp listed c member) with other | signed
  · rw [fits] at other
    cases other
  · exact unsigned signed

/-- A word goes on behind a hyphen that it starts with. -/
theorem isGap_behind_hyphen (fits : IsWord ('-' :: word)) :
    isGap (Cursor.peek ⟨'-' :: (word ++ rest), index, line, column⟩ 1) = false := by
  obtain ⟨c, others, same, signed⟩ := fits.starts
  cases same
  cases word with
  | nil => exact absurd rfl (signed rfl)
  | cons d word => exact isGap_of_isWordChar (fits.chars d (.tail _ (.head _)))

theorem token_word (fits : IsWord word) (inlined : Inline word column)
    (placed : scan.cursor = ⟨word ++ rest, index, line, column⟩) :
    scan.token scan.cursor.current = scan.plainScalar := by
  obtain ⟨c, others, rfl, -⟩ := fits.starts
  have first : isWordChar c = true := fits.chars c (.head _)
  have hyphen : (c == '-' && isGap (Cursor.peek ⟨c :: others ++ rest, index, line, column⟩ 1)) =
      false := by
    by_cases signed : c = '-'
    · subst signed
      simp [isGap_behind_hyphen fits]
    · simp [signed]
  have separator :
      (column == 0 && Cursor.atSeparator ⟨c :: others ++ rest, index, line, column⟩) = false := by
    rcases inlined with inside | unsigned
    · simp [Nat.ne_of_gt inside]
    · have point : c ≠ '.' := ne_of_beq_false (beq_of_isWordChar first (by decide))
      have unsigned : c ≠ '-' := fun signed => unsigned (congrArg some signed)
      simp [Cursor.atSeparator, point, unsigned]
  have starts : startsPlain scan.inFlow ⟨c :: others ++ rest, index, line, column⟩ = true := by
    by_cases signed : c = '-'
    · subst signed
      simp [startsPlain, isGap_behind_hyphen fits, Cursor.current_cons]
    · simp [startsPlain, Cursor.current_cons, isGap_of_isWordChar first,
        isIndicator_of_isWordChar first signed]
  have apart {d : Char} (other : isWordChar d = false) : (c == d) = false :=
    beq_of_isWordChar first other
  rw [token, placed, List.cons_append, Cursor.current_cons] at *
  simp only [apart (d := '%') (by decide), apart (d := '[') (by decide),
    apart (d := ']') (by decide), apart (d := ',') (by decide), apart (d := '?') (by decide),
    apart (d := ':') (by decide), apart (d := '*') (by decide), apart (d := '&') (by decide),
    apart (d := '!') (by decide), apart (d := '|') (by decide), apart (d := '>') (by decide),
    apart (d := '\'') (by decide), apart (d := '"') (by decide),
    toNat_beq_of_isWordChar first 123 (by decide),
    toNat_beq_of_isWordChar first 125 (by decide), hyphen, separator, starts]
  rfl

/-! ### Words in their places -/

/-- A state by the tokens found so far, in reverse, and the open blocks from the inside outwards. -/
@[reducible] def found (cursor : Cursor) (reversed : List Token) (indent : Int) (outer : List Int)
    (flowLevel : Nat) (keyAllowed : Bool) (keys : List PossibleKey) : Scan :=
  ⟨cursor, reversed, reversed.length, indent, outer, flowLevel, keyAllowed, keys⟩

variable {reversed : List Token} {indent : Int} {outer : List Int} {flowLevel : Nat}

/-- Keys that fade are as good as none. -/
theorem leads_fade (begins : Begins scan.cursor.rest) (fade : scan.KeysFade) :
    scan.Leads { scan with keys := [] } := by
  have none : KeysFade { scan with keys := [] } := nofun
  refine leads_of_step_eq ?_ (Nat.le_refl _)
  rw [step, step, skipGap_begins begins, skipGap_begins (by exact begins), fade.dropStaleKeys_eq,
    none.dropStaleKeys_eq]

theorem saveKey_eq (keyAllowed : Bool) (cursor : Cursor) :
    (found cursor reversed indent outer flowLevel keyAllowed []).saveKey =
      .ok (found cursor reversed indent outer flowLevel keyAllowed
        (if keyAllowed then
          [⟨flowLevel, reversed.length, flowLevel == 0 && indent == cursor.column, cursor.index,
            cursor.line, cursor.column⟩]
        else [])) := by
  cases keyAllowed with
  | false => rfl
  | true =>
      rw [saveKey, dropKey]
      cases flowLevel <;> rfl

/-- The place is not in front of the open block. -/
theorem closeBlocks_inside (inside : flowLevel ≠ 0 ∨ indent ≤ column)
    (keyAllowed : Bool) (keys : List PossibleKey) :
    closeBlocks column (found ⟨text, index, line, column⟩ reversed indent outer flowLevel keyAllowed
      keys) =
      found ⟨text, index, line, column⟩ reversed indent outer flowLevel keyAllowed keys := by
  rcases inside with bracketed | deep
  · rw [closeBlocks, if_pos (by simpa [inFlow] using bracketed)]
  · exact closeBlocks_of_le deep

theorem step_word {cursor : Cursor} (keyAllowed lineEnded : Bool) (fits : IsWord word)
    (inlined : Inline word column) (inside : flowLevel ≠ 0 ∨ indent ≤ column)
    (taken : takePlain (flowLevel != 0) indent ⟨word ++ rest, index, line, column⟩ =
      ⟨word.reverse, cursor, lineEnded⟩) :
    (found ⟨word ++ rest, index, line, column⟩ reversed indent outer flowLevel keyAllowed []).step =
      .ok (found cursor (.scalar (String.ofList word) true :: reversed) indent outer flowLevel
        lineEnded
        (if keyAllowed then
          [⟨flowLevel, reversed.length, flowLevel == 0 && indent == column, index, line, column⟩]
        else []), false) := by
  obtain ⟨c, others, same, -⟩ := fits.starts
  have first : isWordChar c = true := fits.chars c (same ▸ .head _)
  refine step_token (fits.begins rest) (KeysFade.dropStaleKeys_eq nofun)
    (closeBlocks_inside inside keyAllowed []) ?_ ?_
  · rw [same]
    exact ne_of_beq_false (beq_of_isWordChar first (by decide))
  · refine (token_word fits inlined rfl).trans ?_
    rw [plainScalar, saveKey_eq]
    simp only [bind, Except.bind, inFlow, taken, List.reverse_reverse]
    rfl

/-- A word that a mark ends may turn out to be a key. -/
theorem leads_word_mark (fits : IsWord word) (inlined : Inline word column)
    (inside : flowLevel ≠ 0 ∨ indent ≤ column) (begins : Begins rest)
    (ends : plainWordLength (flowLevel != 0) rest = 0) :
    (found ⟨word ++ rest, index, line, column⟩ reversed indent outer flowLevel true []).Leads
      (found ⟨rest, index + word.length, line, column + word.length⟩
        (.scalar (String.ofList word) true :: reversed) indent outer flowLevel false
        [⟨flowLevel, reversed.length, flowLevel == 0 && indent == column, index, line,
          column⟩]) := by
  refine leads_of_step (step_word true false fits inlined inside
    (takePlain_mark _ _ fits begins ends _ _ _)) ?_
  obtain ⟨c, others, rfl, -⟩ := fits.starts
  change rest.length < (c :: others ++ rest).length
  rw [List.length_append, List.length_cons]
  omega

/-- A word at the end of its line is no key. The next line is not part of it, since it is indented
no further than the block. -/
theorem leads_word_break {count : Nat} (keyAllowed : Bool) (fits : IsWord word)
    (inlined : Inline word column) (inside : indent < column) (begins : Begins rest)
    (indented : 0 < count ∨ rest = []) (outside : (count : Int) ≤ indent) :
    (found ⟨word ++ '\n' :: (List.replicate count ' ' ++ rest), index, line, column⟩ reversed indent
        outer 0 keyAllowed []).Leads
      (found ⟨rest, index + word.length + 1 + count, line + 1, count⟩
        (.scalar (String.ofList word) true :: reversed) indent outer 0 true []) := by
  have taken : takePlain ((0 : Nat) != 0) indent
      ⟨word ++ '\n' :: (List.replicate count ' ' ++ rest), index, line, column⟩ = _ :=
    takePlain_break indent fits begins count indented outside index line column
  refine (leads_of_step (step_word keyAllowed true fits inlined (.inr (Int.le_of_lt inside))
    taken) ?_).trans (leads_fade begins ?_)
  · simp
    omega
  · intro key member
    cases keyAllowed with
    | false => cases member
    | true =>
        rw [List.mem_singleton.mp member]
        simp [PossibleKey.isStale, Int.ne_of_lt inside]

/-! ### Marks -/

variable {key : PossibleKey}

/-- A mark is taken where it stands, if no key ends there. -/
theorem leads_mark {mark : Char} {after : Scan} {keyAllowed : Bool} {keys : List PossibleKey}
    (solid : mark ≠ ' ' ∧ mark ≠ '#' ∧ isBreak mark = false ∧ mark ≠ endMark)
    (fresh : ∀ key ∈ keys, key.isStale ⟨mark :: rest, index, line, column⟩ = false)
    (inside : flowLevel ≠ 0 ∨ indent ≤ column)
    (taken : (found ⟨mark :: rest, index, line, column⟩ reversed indent outer flowLevel keyAllowed
      keys).token mark = .ok after)
    (shorter : after.cursor.rest = rest) :
    (found ⟨mark :: rest, index, line, column⟩ reversed indent outer flowLevel keyAllowed
      keys).Leads after := by
  have kept : (found ⟨mark :: rest, index, line, column⟩ reversed indent outer flowLevel keyAllowed
      keys).dropStaleKeys = .ok (found ⟨mark :: rest, index, line, column⟩ reversed indent outer
        flowLevel keyAllowed keys) := by
    have none : (keys.any fun key =>
        key.isStale ⟨mark :: rest, index, line, column⟩ && key.required) = false := by
      simp only [List.any_eq_false, Bool.and_eq_true, not_and]
      intro key member stale
      rw [fresh key member] at stale
      cases stale
    have all : (keys.filter fun key =>
        !key.isStale ⟨mark :: rest, index, line, column⟩) = keys := by
      simp only [List.filter_eq_self]
      intro key member
      rw [fresh key member]
      rfl
    simp [dropStaleKeys, none, all]
  have begins : Begins (mark :: rest) := begins_cons solid.1 solid.2.1 solid.2.2.1 rest
  have stepped := @step_token (found ⟨mark :: rest, index, line, column⟩ reversed indent outer
    flowLevel keyAllowed keys) _ after begins kept (closeBlocks_inside inside keyAllowed keys)
    solid.2.2.2 taken
  refine leads_of_step stepped ?_
  rw [shorter]
  exact Nat.lt_succ_self _

/-- Tokens are put in front of those that were found since. -/
theorem insertAt_eq (front : List Token) {count : Nat}
    (all : count = front.length + reversed.length) (token : Token) (cursor : Cursor)
    (keyAllowed : Bool) (keys : List PossibleKey) :
    insertAt reversed.length token
        ⟨cursor, front ++ reversed, count, indent, outer, flowLevel, keyAllowed, keys⟩ =
      ⟨cursor, front ++ token :: reversed, count + 1, indent, outer, flowLevel, keyAllowed,
        keys⟩ := by
  have later : count - reversed.length = front.length := by omega
  simp [insertAt, later]

theorem token_colon {gap : Char} (isGap : isGap gap = true) {keyAllowed : Bool}
    {keys : List PossibleKey} :
    (found ⟨':' :: gap :: rest, index, line, column⟩ reversed indent outer 0 keyAllowed keys).token
      ':' =
    (found ⟨':' :: gap :: rest, index, line, column⟩ reversed indent outer 0 keyAllowed
      keys).value := by
  simp [token, Cursor.atSeparator, Cursor.peek, isGap]

/-- The colon behind a word makes the word a key, which opens a mapping further inside. -/
theorem leads_colon_open {token : Token} {start place : Nat} {gap : Char} (required : Bool)
    (isGap : isGap gap = true) (near : index ≤ start + 1024) (deep : indent < place)
    (behind : place ≤ column) :
    (found ⟨':' :: gap :: rest, index, line, column⟩ (token :: reversed) indent outer 0 false
        [⟨0, reversed.length, required, start, line, place⟩]).Leads
      (found ⟨gap :: rest, index + 1, line, column + 1⟩
        (.value :: token :: .key :: .blockMappingStart :: reversed) place (indent :: outer) 0 false
        []) := by
  refine leads_mark (by decide) ?_ (.inr (by omega)) ((token_colon isGap).trans ?_) rfl
  · intro key member
    rw [List.mem_singleton.mp member]
    simp [PossibleKey.isStale, near]
  · have key := @insertAt_eq reversed indent outer 0 [token] (reversed.length + 1)
      (Nat.add_comm _ _) .key ⟨':' :: gap :: rest, index, line, column⟩ false []
    have opening := @insertAt_eq reversed place (indent :: outer) 0 [token, .key]
      (reversed.length + 1 + 1) (by simp; omega) .blockMappingStart
      ⟨':' :: gap :: rest, index, line, column⟩ false []
    simp only [List.cons_append, List.nil_append] at key opening
    simp [Scan.value, key, openBlock, deep, opening, inFlow]
    rfl

/-- The colon behind a word in the open mapping makes the word its next key. -/
theorem leads_colon_next {token : Token} {start place : Nat} {gap : Char} (required : Bool)
    (isGap : isGap gap = true) (near : index ≤ start + 1024) (behind : place ≤ column) :
    (found ⟨':' :: gap :: rest, index, line, column⟩ (token :: reversed) place outer 0 false
        [⟨0, reversed.length, required, start, line, place⟩]).Leads
      (found ⟨gap :: rest, index + 1, line, column + 1⟩ (.value :: token :: .key :: reversed) place
        outer 0 false []) := by
  refine leads_mark (by decide) ?_ (.inr (by omega)) ((token_colon isGap).trans ?_) rfl
  · intro key member
    rw [List.mem_singleton.mp member]
    simp [PossibleKey.isStale, near]
  · have key := @insertAt_eq reversed place outer 0 [token] (reversed.length + 1)
      (Nat.add_comm _ _) .key ⟨':' :: gap :: rest, index, line, column⟩ false []
    simp only [List.cons_append, List.nil_append] at key
    simp [Scan.value, key, openBlock, inFlow]
    rfl

theorem token_hyphen {gap : Char} (isGap : isGap gap = true) (indented : 0 < column) :
    (found ⟨'-' :: gap :: rest, index, line, column⟩ reversed indent outer 0 true []).token '-' =
      (found ⟨'-' :: gap :: rest, index, line, column⟩ reversed indent outer 0 true
        []).blockEntry := by
  simp [token, Cursor.peek, isGap, Nat.ne_of_gt indented]

/-- The hyphen of the first item opens a list further inside. -/
theorem leads_hyphen_open {gap : Char} (isGap : isGap gap = true) (indented : 0 < column)
    (deep : indent < column) :
    (found ⟨'-' :: gap :: rest, index, line, column⟩ reversed indent outer 0 true []).Leads
      (found ⟨gap :: rest, index + 1, line, column + 1⟩
        (.blockEntry :: .blockSequenceStart :: reversed) column (indent :: outer) 0 true []) := by
  refine leads_mark (by decide) nofun (.inr (by omega)) ((token_hyphen isGap indented).trans ?_) rfl
  simp [blockEntry, startBlock, inFlow, openBlock, deep]
  rfl

/-- The hyphen of a further item stands in the column of the list. -/
theorem leads_hyphen_next {gap : Char} (isGap : isGap gap = true) (indented : 0 < column) :
    (found ⟨'-' :: gap :: rest, index, line, column⟩ reversed column outer 0 true []).Leads
      (found ⟨gap :: rest, index + 1, line, column + 1⟩ (.blockEntry :: reversed) column outer 0
        true []) := by
  refine leads_mark (by decide) nofun (.inr (by omega)) ((token_hyphen isGap indented).trans ?_) rfl
  simp [blockEntry, startBlock, inFlow, openBlock]
  rfl

theorem leads_bracket (inside : indent ≤ column) :
    (found ⟨'[' :: rest, index, line, column⟩ reversed indent outer 0 false []).Leads
      (found ⟨rest, index + 1, line, column + 1⟩ (.flowSequenceStart :: reversed) indent outer 1
        true []) := by
  refine leads_mark (by decide) nofun (.inr inside) ?_ rfl
  simp [token, Cursor.atSeparator]
  rfl

/-- A comma inside brackets, behind a word that has not become a key. -/
theorem leads_comma {start place : Nat} (near : index ≤ start + 1024) {position : Nat} :
    (found ⟨',' :: rest, index, line, column⟩ reversed indent outer 1 false
        [⟨1, position, false, start, line, place⟩]).Leads
      (found ⟨rest, index + 1, line, column + 1⟩ (.flowEntry :: reversed) indent outer 1 true
        []) := by
  refine leads_mark (by decide) ?_ (.inl Nat.one_ne_zero) ?_ rfl
  · intro key member
    rw [List.mem_singleton.mp member]
    simp [PossibleKey.isStale, near]
  · simp [token, Cursor.atSeparator]
    rfl

/-- The bracket that ends a list, behind a word that has not become a key. -/
theorem leads_bracketEnd {start place : Nat} (near : index ≤ start + 1024) {position : Nat} :
    (found ⟨']' :: rest, index, line, column⟩ reversed indent outer 1 false
        [⟨1, position, false, start, line, place⟩]).Leads
      (found ⟨rest, index + 1, line, column + 1⟩ (.flowSequenceEnd :: reversed) indent outer 0 false
        []) := by
  refine leads_mark (by decide) ?_ (.inl Nat.one_ne_zero) ?_ rfl
  · intro key member
    rw [List.mem_singleton.mp member]
    simp [PossibleKey.isStale, near]
  · simp [token, Cursor.atSeparator]
    rfl

/-! ### Keys and items -/

/-- A key with its colon, the first of a mapping further inside. -/
theorem leads_key_open {gap : Char} (fits : IsWord word) (inlined : Inline word column)
    (isGap : isGap gap = true) (deep : indent < column) :
    (found ⟨word ++ ':' :: gap :: rest, index, line, column⟩ reversed indent outer 0 true []).Leads
      (found ⟨gap :: rest, index + word.length + 1, line, column + word.length + 1⟩
        (.value :: .scalar (String.ofList word) true :: .key :: .blockMappingStart :: reversed)
        column (indent :: outer) 0 false []) := by
  have ends : plainWordLength ((0 : Nat) != 0) (':' :: gap :: rest) = 0 := by
    simp [plainWordLength, isGap]
  have begins : Begins (':' :: gap :: rest) := begins_cons (by decide) (by decide) rfl _
  have near : index + word.length ≤ index + 1024 := Nat.add_le_add_left fits.short index
  exact (leads_word_mark fits inlined (.inr (Int.le_of_lt deep)) begins ends).trans
    (leads_colon_open _ isGap near deep (Nat.le_add_right _ _))

/-- A further key of the open mapping with its colon. -/
theorem leads_key_next {gap : Char} (fits : IsWord word) (inlined : Inline word column)
    (isGap : isGap gap = true) :
    (found ⟨word ++ ':' :: gap :: rest, index, line, column⟩ reversed column outer 0 true []).Leads
      (found ⟨gap :: rest, index + word.length + 1, line, column + word.length + 1⟩
        (.value :: .scalar (String.ofList word) true :: .key :: reversed) column outer 0 false
        []) := by
  have ends : plainWordLength ((0 : Nat) != 0) (':' :: gap :: rest) = 0 := by
    simp [plainWordLength, isGap]
  have begins : Begins (':' :: gap :: rest) := begins_cons (by decide) (by decide) rfl _
  have near : index + word.length ≤ index + 1024 := Nat.add_le_add_left fits.short index
  exact (leads_word_mark fits inlined (.inr (Int.le_refl _)) begins ends).trans
    (leads_colon_next _ isGap near (Nat.le_add_right _ _))

end Scan

/-- The lines of the items of a list. -/
def itemLines (width : Nat) : (words : List (List Char)) → List Char
  | [] => []
  | word :: words =>
      List.replicate width ' ' ++ '-' :: ' ' :: (word ++ '\n' :: itemLines width words)

/-- The tokens of the items of a list. -/
def itemTokens (words : List (List Char)) : List Token :=
  words.flatMap fun word => [.blockEntry, .scalar (String.ofList word) true]

/-- What stands behind the first word of a list in brackets. -/
def bracketed : (words : List (List Char)) → List Char
  | [] => [']', '\n']
  | word :: words => ',' :: ' ' :: (word ++ bracketed words)

/-- The tokens of the words behind the first one of a list in brackets. -/
def bracketedTokens (words : List (List Char)) : List Token :=
  words.flatMap fun word => [.flowEntry, .scalar (String.ofList word) true]

namespace Scan

variable {scan next : Scan} {rest : List Char} {index line column : Nat} {reversed : List Token}
  {indent : Int} {outer : List Int} {flowLevel width : Nat}

/-- The end of the last line. -/
theorem leads_lastBreak (keyAllowed : Bool) :
    (found ⟨['\n'], index, line, column⟩ reversed indent outer 0 keyAllowed []).Leads
      (found ⟨[], index + 1, line + 1, 0⟩ reversed indent outer 0 true []) := by
  have moved := @leads_newline
    (found ⟨['\n'], index, line, column⟩ reversed indent outer 0 keyAllowed []) [] index line column
    begins_nil 0 rfl
  cases keyAllowed <;> exact moved

theorem leads_space {keyAllowed : Bool} (begins : Begins rest) :
    (found ⟨' ' :: rest, index, line, column⟩ reversed indent outer flowLevel keyAllowed []).Leads
      (found ⟨rest, index + 1, line, column + 1⟩ reversed indent outer flowLevel keyAllowed []) :=
  leads_spaces begins 1 rfl

/-- The words of a list in brackets, up to the end of the document. This is an induction on the
words behind the first one. -/
theorem gives_bracketed {tokens : List Token} (words : List (List Char)) (first : IsWord word)
    (fits : ∀ word ∈ words, IsWord word) (indented : 0 < column)
    (ends : ∀ index line, (found ⟨[], index, line, 0⟩
      (.flowSequenceEnd :: ((bracketedTokens words).reverse ++
        .scalar (String.ofList word) true :: reversed)) indent outer 0 true []).Gives tokens) :
    (found ⟨word ++ bracketed words, index, line, column⟩ reversed indent outer 1 true []).Gives
      tokens := by
  induction words generalizing word index column reversed with
  | nil =>
      have near : index + word.length ≤ index + 1024 := Nat.add_le_add_left first.short index
      have taken := @leads_word_mark word [']', '\n'] index line column reversed indent outer 1
        first (.inl indented) (.inl Nat.one_ne_zero) (begins_cons (by decide) (by decide) rfl _) rfl
      exact taken _ (leads_bracketEnd near _ (leads_lastBreak false _ (ends _ _)))
  | cons other words ih =>
      obtain ⟨second, others⟩ := List.forall_mem_cons.mp fits
      have near : index + word.length ≤ index + 1024 := Nat.add_le_add_left first.short index
      have taken := @leads_word_mark word (bracketed (other :: words)) index line column reversed
        indent outer 1 first (.inl indented) (.inl Nat.one_ne_zero)
        (begins_cons (by decide) (by decide) rfl _) rfl
      refine taken _ (leads_comma near _ (leads_space (second.begins _) _ ?_))
      refine ih second others (Nat.succ_pos _) fun index' line' => ?_
      simpa [bracketedTokens] using ends index' line'

/-- The items of a list, up to the end of the document, from behind the hyphen of the first one.
This is an induction on the further items. -/
theorem gives_items {tokens : List Token} (words : List (List Char)) (first : IsWord word)
    (fits : ∀ word ∈ words, IsWord word) (indented : 0 < width)
    (ends : ∀ index line, (found ⟨[], index, line, 0⟩
      ((itemTokens words).reverse ++ .scalar (String.ofList word) true :: reversed) width outer 0
      true []).Gives tokens) :
    (found ⟨' ' :: (word ++ '\n' :: itemLines width words), index, line, width + 1⟩ reversed width
      outer 0 true []).Gives tokens := by
  have inlined : Inline word (width + 1 + 1) := .inl (Nat.succ_pos _)
  have inside : (width : Int) < (width + 1 + 1 : Nat) := by omega
  refine leads_space (first.begins _) _ ?_
  induction words generalizing word index line reversed with
  | nil =>
      have taken := @leads_word_break word [] (index + 1) line (width + 1 + 1) reversed width outer
        0 true first inlined inside begins_nil (.inr rfl) (by omega)
      exact taken _ (ends _ _)
  | cons other words ih =>
      obtain ⟨second, others⟩ := List.forall_mem_cons.mp fits
      have begins : Begins ('-' :: ' ' :: (other ++ '\n' :: itemLines width words)) :=
        begins_cons (by decide) (by decide) rfl _
      have taken := @leads_word_break word _ (index + 1) line (width + 1 + 1) reversed width outer
        width true first inlined inside begins (.inl indented) (by omega)
      refine taken _ (leads_hyphen_next rfl indented _ (leads_space (second.begins _) _ ?_))
      refine ih second others (fun index' line' => ?_) (.inl (Nat.succ_pos _))
      simpa [itemTokens] using ends index' line'

theorem step_end {closed last : Scan} {keyAllowed : Bool}
    (shut : closeBlocks 0 (found ⟨[], index, line, 0⟩ reversed indent outer 0 keyAllowed []) =
      closed)
    (done : closed.cursor.rest = []) (finished : closed.finish = .ok last) :
    (found ⟨[], index, line, 0⟩ reversed indent outer 0 keyAllowed []).step = .ok (last, true) := by
  have current : closed.cursor.current = endMark := by
    rw [Cursor.current, Cursor.peek, done]
    rfl
  have fresh : (found ⟨[], index, line, 0⟩ reversed indent outer 0 keyAllowed []).dropStaleKeys =
      .ok (found ⟨[], index, line, 0⟩ reversed indent outer 0 keyAllowed []) := rfl
  rw [step, skipGap_begins begins_nil, fresh]
  simp only [bind, Except.bind, Int.natCast_zero, shut, current, beq_self_eq_true, if_true,
    finished]
  rfl

/-- At the end of the document all blocks end, here those of an entry in a mapping. -/
theorem gives_end_of_entry :
    (found ⟨[], index, line, 0⟩ reversed 2 [0, -1] 0 true []).Gives
      (reversed.reverse ++ [.blockEnd, .blockEnd, .streamEnd]) := by
  have ended : (found ⟨[], index, line, 0⟩ reversed 2 [0, -1] 0 true []).step =
      .ok (⟨⟨[], index, line, 0⟩, .streamEnd :: .blockEnd :: .blockEnd :: reversed,
        reversed.length + 3, -1, [], 0, false, []⟩, true) := step_end rfl rfl rfl
  have gives := Gives.finish ended
  simpa using gives

/-- The same, with a list that is indented further. -/
theorem gives_end_of_list (deep : 2 < width) :
    (found ⟨[], index, line, 0⟩ reversed width [2, 0, -1] 0 true []).Gives
      (reversed.reverse ++ [.blockEnd, .blockEnd, .blockEnd, .streamEnd]) := by
  have outside : 0 < width := by omega
  have shut : closeBlocks 0 (found ⟨[], index, line, 0⟩ reversed width [2, 0, -1] 0 true []) =
      ⟨⟨[], index, line, 0⟩, .blockEnd :: .blockEnd :: reversed, reversed.length + 2, 0, [-1], 0,
        true, []⟩ := by
    simp [closeBlocks, inFlow, closeBlocks.close, outside, emit]
  have ended : (found ⟨[], index, line, 0⟩ reversed width [2, 0, -1] 0 true []).step =
      .ok (⟨⟨[], index, line, 0⟩, .streamEnd :: .blockEnd :: .blockEnd :: .blockEnd :: reversed,
        reversed.length + 4, -1, [], 0, false, []⟩, true) := step_end shut rfl rfl
  have gives := Gives.finish ended
  simpa using gives

end Scan

end SlashBot.Yaml

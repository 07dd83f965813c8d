import SlashBot.Proofs.Pattern

/-!
# Where tokens stand

Where a token ends can be told from positions on its line, without trying anything: by the last
equals sign of the word behind which a quote closes, else by a quote at the start that closes,
else by the end of the word. This fixes the tokens of a line completely, and they are those that
the pattern finds.
-/

namespace SlashBot

open Text

namespace Token

variable {chars text front tail rest body : List Char} {c : Char}
  {start stop sign opening closing position : Nat}

/-! ## Positions -/

/-- From a position on, the first quote that is reached stands at another one. A backslash takes
the character behind it along, and that is no line feed. -/
inductive Reaches (chars : List Char) : (position closing : Nat) → Prop where
  | here {position : Nat} (quote : chars[position]? = some '"') : Reaches chars position position
  | plain {position closing : Nat} {c : Char} (there : chars[position]? = some c)
      (notQuote : c ≠ '"') (notEscape : c ≠ '\\') :
      Reaches chars (position + 1) closing → Reaches chars position closing
  | escaped {position closing : Nat} {c : Char} (escape : chars[position]? = some '\\')
      (there : chars[position + 1]? = some c) (notFeed : c ≠ '\n') :
      Reaches chars (position + 2) closing → Reaches chars position closing

/-- A quote closes at another one. -/
structure Closes (chars : List Char) (opening closing : Nat) : Prop where
  quote : chars[opening]? = some '"'
  reaches : Reaches chars (opening + 1) closing

/-- A position on a line that is not blank. -/
def Solid (chars : List Char) (position : Nat) : Prop :=
  ∃ c, chars[position]? = some c ∧ isBlank c = false

/-- On the run without blanks from a start, there is an equals sign, and a quote right behind it
closes. -/
structure IsKey (chars : List Char) (start sign closing : Nat) : Prop where
  behind : start < sign
  run : ∀ position, start ≤ position → position ≤ sign → Solid chars position
  equals : chars[sign]? = some '='
  closes : Closes chars (sign + 1) closing

/-- A token that starts at a position ends in front of another one. -/
inductive EndsAt (chars : List Char) (start : Nat) : (stop : Nat) → Prop where
  | keyed {sign closing : Nat} (key : IsKey chars start sign closing)
      (greatest : ∀ other closing, IsKey chars start other closing → other ≤ sign) :
      EndsAt chars start (closing + 1)
  | quoted {closing : Nat} (keyless : ∀ sign closing, ¬ IsKey chars start sign closing)
      (closes : Closes chars start closing) : EndsAt chars start (closing + 1)
  | bare {stop : Nat} (keyless : ∀ sign closing, ¬ IsKey chars start sign closing)
      (unclosed : ∀ closing, ¬ Closes chars start closing) (filled : start < stop)
      (run : ∀ position, start ≤ position → position < stop → Solid chars position)
      (ends : ¬ Solid chars stop) : EndsAt chars start stop

/-- These are the tokens from a position on. -/
inductive ReadFrom (chars : List Char) :
    (position : Nat) → (tokens : List (List Char)) → Prop where
  | done {position : Nat} (blank : ∀ later, position ≤ later → ¬ Solid chars later) :
      ReadFrom chars position []
  | token {position start stop : Nat} {tokens : List (List Char)} (reached : position ≤ start)
      (gap : ∀ between, position ≤ between → between < start → ¬ Solid chars between)
      (begins : Solid chars start) (ends : EndsAt chars start stop) :
      ReadFrom chars stop tokens →
      ReadFrom chars position ((chars.drop start).take (stop - start) :: tokens)

/-! ## At most one reading -/

theorem Reaches.unique (reaches : Reaches chars position closing) {other : Nat}
    (again : Reaches chars position other) : closing = other := by
  induction reaches with
  | here quote =>
      cases again with
      | here => rfl
      | plain there notQuote => exact absurd (Option.some.inj (there.symm.trans quote)) notQuote
      | escaped escape => cases escape.symm.trans quote
  | plain there notQuote notEscape later ih =>
      cases again with
      | here quote => exact absurd (Option.some.inj (there.symm.trans quote)) notQuote
      | plain _ _ _ more => exact ih more
      | escaped escape => exact absurd (Option.some.inj (there.symm.trans escape)) notEscape
  | escaped escape there notFeed later ih =>
      cases again with
      | here quote => cases escape.symm.trans quote
      | plain other _ notEscape => exact absurd (Option.some.inj (other.symm.trans escape)) notEscape
      | escaped _ _ _ more => exact ih more

theorem Closes.unique (closes : Closes chars opening closing) {other : Nat}
    (again : Closes chars opening other) : closing = other :=
  closes.reaches.unique again.reaches

theorem EndsAt.unique (ends : EndsAt chars start stop) {other : Nat}
    (again : EndsAt chars start other) : stop = other := by
  cases ends with
  | keyed key greatest =>
      cases again with
      | keyed otherKey otherGreatest =>
          cases Nat.le_antisymm (otherGreatest _ _ key) (greatest _ _ otherKey)
          rw [key.closes.unique otherKey.closes]
      | quoted keyless => exact absurd key (keyless _ _)
      | bare keyless => exact absurd key (keyless _ _)
  | quoted keyless closes =>
      cases again with
      | keyed key => exact absurd key (keyless _ _)
      | quoted _ otherCloses => rw [closes.unique otherCloses]
      | bare _ unclosed => exact absurd closes (unclosed _)
  | bare keyless unclosed filled run ends =>
      cases again with
      | keyed key => exact absurd key (keyless _ _)
      | quoted _ closes => exact absurd closes (unclosed _)
      | bare _ _ otherFilled otherRun otherEnds =>
          rcases Nat.lt_trichotomy stop other with before | same | behind
          · exact absurd (otherRun stop (Nat.le_of_lt filled) before) ends
          · exact same
          · exact absurd (run other (Nat.le_of_lt otherFilled) behind) otherEnds

theorem ReadFrom.unique {tokens others : List (List Char)}
    (reads : ReadFrom chars position tokens) (again : ReadFrom chars position others) :
    tokens = others := by
  induction reads generalizing others with
  | done blank =>
      cases again with
      | done => rfl
      | token reached _ begins => exact absurd begins (blank _ reached)
  | @token position start stop tokens reached gap begins ends later ih =>
      cases again with
      | done blank => exact absurd begins (blank start reached)
      | @token _ otherStart otherStop more otherReached otherGap otherBegins otherEnds otherLater =>
          have same : start = otherStart := by
            rcases Nat.lt_trichotomy start otherStart with before | same | behind
            · exact absurd begins (otherGap start reached before)
            · exact same
            · exact absurd otherBegins (gap otherStart otherReached behind)
          cases same
          cases ends.unique otherEnds
          rw [ih otherLater]

/-! ## From a position on -/

theorem of_drop_eq_cons (written : chars.drop position = c :: rest) :
    chars[position]? = some c ∧ chars.drop (position + 1) = rest := by
  rw [← List.head?_drop, ← List.tail_drop, written]
  exact ⟨rfl, rfl⟩

theorem drop_eq_cons (there : chars[position]? = some c) :
    chars.drop position = c :: chars.drop (position + 1) := by
  obtain ⟨bound, rfl⟩ := List.getElem?_eq_some_iff.mp there
  exact List.drop_eq_getElem_cons bound

theorem drop_append (written : chars.drop position = front ++ rest) :
    chars.drop (position + front.length) = rest := by
  rw [← List.drop_drop, written, List.drop_left]

theorem solid_of_mem (written : chars.drop position = front ++ rest)
    (solid : ∀ d ∈ front, isBlank d = false) {later : Nat} (reached : position ≤ later)
    (within : later < position + front.length) : Solid chars later := by
  obtain ⟨offset, rfl⟩ := Nat.exists_eq_add_of_le reached
  have inside : offset < front.length := by omega
  refine ⟨front[offset], ?_, solid _ (List.getElem_mem inside)⟩
  rw [← List.getElem?_drop, written, List.getElem?_append_left inside,
    List.getElem?_eq_getElem inside]

theorem IsBody.reaches (proper : IsBody body)
    (written : chars.drop position = body ++ '"' :: rest) :
    Reaches chars position (position + body.length) := by
  induction proper generalizing position with
  | nil => exact .here (of_drop_eq_cons written).1
  | plain notQuote notEscape _ ih =>
      obtain ⟨there, later⟩ := of_drop_eq_cons written
      have reached := ih later
      rw [Nat.add_right_comm] at reached
      exact .plain there notQuote notEscape reached
  | escaped notFeed _ ih =>
      obtain ⟨escape, follows⟩ := of_drop_eq_cons written
      obtain ⟨there, later⟩ := of_drop_eq_cons follows
      have reached := ih later
      rw [Nat.add_right_comm position 2] at reached
      exact .escaped escape there notFeed reached

theorem Reaches.closingLength?_ne_none (reaches : Reaches chars position closing) :
    closingLength? (chars.drop position) ≠ none := by
  induction reaches with
  | here quote =>
      rw [drop_eq_cons quote, closingLength?_quote]
      simp
  | plain there notQuote notEscape _ ih =>
      rw [drop_eq_cons there, closingLength?_plain notQuote notEscape]
      simpa using ih
  | escaped escape there notFeed _ ih =>
      rw [drop_eq_cons escape, drop_eq_cons there, closingLength?_escaped notFeed]
      simpa using ih

/-- A quote closes if one is found behind it. -/
theorem exists_closes_iff (quote : chars[opening]? = some '"') :
    (∃ closing, Closes chars opening closing) ↔
      closingLength? (chars.drop (opening + 1)) ≠ none := by
  constructor
  · rintro ⟨closing, closes⟩
    exact closes.reaches.closingLength?_ne_none
  · intro closed
    obtain ⟨size, found⟩ := Option.ne_none_iff_exists'.mp closed
    obtain ⟨body, rest, proper, written, -⟩ := of_closingLength?_eq_some found
    exact ⟨_, quote, proper.reaches written⟩

theorem isKey_of_closes (begins : Solid chars start) (solid : ∀ d ∈ front, isBlank d = false)
    (onward : chars.drop (start + 1) = front ++ '=' :: rest)
    (closes : Closes chars (start + 1 + front.length + 1) closing) :
    IsKey chars start (start + 1 + front.length) closing := by
  refine ⟨by omega, ?_, (of_drop_eq_cons (drop_append onward)).1, closes⟩
  intro position reached within
  rcases Nat.eq_or_lt_of_le reached with rfl | later
  · exact begins
  · have whole : chars.drop (start + 1) = (front ++ ['=']) ++ rest := by simpa using onward
    have visible : ∀ d ∈ front ++ ['='], isBlank d = false := by
      intro d member
      rcases List.mem_append.mp member with inFront | last
      · exact solid d inFront
      · cases List.mem_singleton.mp last
        rfl
    refine solid_of_mem whole visible later ?_
    rw [List.length_append, List.length_singleton]
    omega

theorem IsKey.from_later (key : IsKey chars start sign closing) (reached : start ≤ position)
    (behind : position < sign) : IsKey chars position sign closing :=
  ⟨behind, fun later inside => key.run later (Nat.le_trans reached inside), key.equals, key.closes⟩

/-- Behind a start, a text without a key is one in which no position is that of a key. -/
theorem keyless_iff (begins : Solid chars start) :
    Keyless (chars.drop (start + 1)) ↔ ∀ sign closing, ¬ IsKey chars start sign closing := by
  constructor
  · intro keyless sign closing key
    obtain ⟨offset, rfl⟩ := Nat.exists_eq_add_of_lt key.behind
    have written : chars.drop (start + 1) = (chars.drop (start + 1)).take offset ++
        '=' :: '"' :: chars.drop (start + offset + 1 + 2) := by
      have behind : (chars.drop (start + 1)).drop offset =
          '=' :: '"' :: chars.drop (start + offset + 1 + 2) := by
        rw [List.drop_drop, Nat.add_right_comm, drop_eq_cons key.equals,
          drop_eq_cons key.closes.quote]
      rw [← behind, List.take_append_drop]
    have solid : ∀ d ∈ (chars.drop (start + 1)).take offset, isBlank d = false := by
      intro d member
      obtain ⟨index, there⟩ := List.mem_iff_getElem?.mp member
      rw [List.getElem?_take, List.getElem?_drop] at there
      split at there
      · obtain ⟨e, same, visible⟩ := key.run (start + 1 + index) (by omega) (by omega)
        cases same.symm.trans there
        exact visible
      · cases there
    exact key.closes.reaches.closingLength?_ne_none (keyless _ _ solid written)
  · intro unkeyed front rest solid written
    obtain ⟨-, follows⟩ := of_drop_eq_cons (drop_append written)
    obtain ⟨quote, later⟩ := of_drop_eq_cons follows
    by_contra closed
    rw [← later] at closed
    obtain ⟨closing, closes⟩ := (exists_closes_iff quote).mpr closed
    exact unkeyed _ closing (isKey_of_closes begins solid written closes)

/-! ## Readings by positions -/

/-- If no key starts at a quote, then none reaches beyond it. -/
theorem IsKey.le_of_keyless {other : Nat} (key : IsKey chars start other closing)
    (quote : chars[sign + 1]? = some '"')
    (keyless : ∀ other closing, ¬ IsKey chars (sign + 1) other closing)
    (before : start ≤ sign + 1) : other ≤ sign := by
  by_contra behind
  have notQuote : other ≠ sign + 1 := by
    rintro rfl
    cases key.equals.symm.trans quote
  exact keyless other closing (key.from_later before (by omega))

theorem EndsWord.not_solid (ends : EndsWord rest) (behind : chars.drop position = rest) :
    ¬ Solid chars position := by
  rintro ⟨d, follows, visible⟩
  rw [← List.head?_drop, behind] at follows
  rw [ends d follows] at visible
  cases visible

/-- A token ends where its reading says. -/
theorem Reading.endsAt (reading : Reading c tail rest) (solid : isBlank c = false)
    (written : chars.drop start = c :: (tail ++ rest)) :
    EndsAt chars start (start + tail.length + 1) := by
  obtain ⟨there, onward⟩ := of_drop_eq_cons written
  have begins : Solid chars start := ⟨c, there, solid⟩
  cases reading with
  | keyed front body solidFront proper keyed last =>
      have inFull : chars.drop (start + 1) = front ++ '=' :: '"' :: (body ++ '"' :: rest) := by
        rw [onward, keyed]
        simp
      obtain ⟨-, follows⟩ := of_drop_eq_cons (drop_append inFull)
      obtain ⟨quote, later⟩ := of_drop_eq_cons follows
      have key := isKey_of_closes begins solidFront inFull ⟨quote, proper.reaches later⟩
      rw [← later] at last
      have keyless := (keyless_iff ⟨'"', quote, rfl⟩).mp last
      have size : start + tail.length + 1 =
          start + 1 + front.length + 1 + 1 + body.length + 1 := by
        rw [keyed]
        simp only [List.length_append, List.length_cons, List.length_nil]
        omega
      rw [size]
      exact .keyed key fun other closing otherKey =>
        otherKey.le_of_keyless quote keyless (by omega)
  | quoted body opened proper quoted keyless =>
      have inFull : chars.drop (start + 1) = body ++ '"' :: rest := by
        rw [onward, quoted]
        simp
      have size : start + tail.length + 1 = start + 1 + body.length + 1 := by
        rw [quoted, List.length_append, List.length_singleton]
        omega
      rw [← onward] at keyless
      rw [size]
      exact .quoted ((keyless_iff begins).mp keyless) ⟨opened ▸ there, proper.reaches inFull⟩
  | bare solidTail ends keyless unclosed =>
      rw [← onward] at keyless unclosed
      have visible : ∀ d ∈ c :: tail, isBlank d = false := by
        simpa using ⟨solid, solidTail⟩
      refine .bare ((keyless_iff begins).mp keyless) ?_ (by omega) ?_ ?_
      · intro closing closes
        have opened : c = '"' := Option.some.inj (there.symm.trans closes.quote)
        exact closes.reaches.closingLength?_ne_none (unclosed opened)
      · intro position reached before
        have within : position < start + (c :: tail).length := by
          rw [List.length_cons]
          omega
        exact solid_of_mem written visible reached within
      · apply EndsWord.not_solid ends
        rw [Nat.add_right_comm, drop_append onward]

theorem ReadFrom.blank {tokens : List (List Char)} (blank : ¬ Solid chars position)
    (reads : ReadFrom chars (position + 1) tokens) : ReadFrom chars position tokens := by
  cases reads with
  | done blanks =>
      refine .done fun later reached => ?_
      rcases Nat.eq_or_lt_of_le reached with rfl | behind
      · exact blank
      · exact blanks later behind
  | token reached gap begins ends later =>
      refine .token (Nat.le_of_succ_le reached) ?_ begins ends later
      intro between behind before
      rcases Nat.eq_or_lt_of_le behind with rfl | behind
      · exact blank
      · exact gap between behind before

/-- The tokens of what stands behind a position are those from there on. -/
theorem readFrom_all (chars : List Char) (position : Nat) :
    ReadFrom chars position (all (chars.drop position)) := by
  generalize written : chars.drop position = text
  induction text using line_induction generalizing position with
  | nil =>
      refine .done ?_
      rintro later reached ⟨c, there, -⟩
      have bound := (List.getElem?_eq_some_iff.mp there).1
      have whole : chars.length ≤ position := List.drop_eq_nil_iff.mp written
      omega
  | blank c rest blank ih =>
      obtain ⟨there, later⟩ := of_drop_eq_cons written
      rw [all_blank blank]
      refine .blank ?_ (ih _ later)
      rintro ⟨d, same, visible⟩
      cases there.symm.trans same
      rw [blank] at visible
      cases visible
  | token c tail rest solid reading ih =>
      obtain ⟨there, onward⟩ := of_drop_eq_cons written
      have later := drop_append onward
      rw [Nat.add_right_comm] at later
      have token : c :: tail =
          (chars.drop position).take (position + tail.length + 1 - position) := by
        have size : position + tail.length + 1 - position = tail.length + 1 := by omega
        rw [size, written, List.take_succ_cons, List.take_left]
      rw [all_token solid reading, token]
      refine .token (Nat.le_refl position) ?_ ⟨c, there, solid⟩ (reading.endsAt solid written)
        (ih _ later)
      intro between reached before
      omega

/-! ## Blanks within tokens -/

/-- Blanks stand in a token only within one quoted text, with which the token ends. -/
def QuotesBlanks (token : List Char) : Prop :=
  (∀ c ∈ token, isBlank c = false) ∨ ∃ front body, (∀ c ∈ front, isBlank c = false) ∧
    IsBody body ∧ token = front ++ '"' :: (body ++ ['"'])

theorem Reading.quotesBlanks (reading : Reading c tail rest) (solid : isBlank c = false) :
    QuotesBlanks (c :: tail) := by
  cases reading with
  | keyed front body solidFront proper keyed last =>
      refine .inr ⟨c :: (front ++ ['=']), body, ?_, proper, by simp [keyed]⟩
      intro d member
      rcases List.mem_cons.mp member with rfl | later
      · exact solid
      · rcases List.mem_append.mp later with inFront | sign
        · exact solidFront d inFront
        · cases List.mem_singleton.mp sign
          rfl
  | quoted body opened proper quoted keyless =>
      exact .inr ⟨[], body, by simp, proper, by rw [opened, quoted]; rfl⟩
  | bare solidTail ends keyless unclosed => exact .inl (by simpa using ⟨solid, solidTail⟩)

theorem quotesBlanks_of_mem_all {token : List Char} (member : token ∈ all chars) :
    QuotesBlanks token := by
  induction chars using line_induction with
  | nil => cases member
  | blank c rest blank ih =>
      rw [all_blank blank] at member
      exact ih member
  | token c tail rest solid reading ih =>
      rw [all_token solid reading] at member
      rcases List.mem_cons.mp member with rfl | later
      · exact reading.quotesBlanks solid
      · exact ih later

/-- Where no quote of the run closes, the token ends with the run. -/
theorem EndsAt.solid_of_unclosed (ends : EndsAt chars start stop)
    (unclosed : ∀ opening closing,
      (∀ position, start ≤ position → position ≤ opening → Solid chars position) →
        ¬ Closes chars opening closing) :
    (∀ position, start ≤ position → position < stop → Solid chars position) ∧
      ¬ Solid chars stop := by
  cases ends with
  | @keyed sign closing key greatest =>
      refine absurd key.closes (unclosed _ _ ?_)
      intro position reached within
      rcases Nat.eq_or_lt_of_le within with rfl | before
      · exact ⟨'"', key.closes.quote, rfl⟩
      · exact key.run position reached (Nat.le_of_lt_succ before)
  | quoted keyless closes =>
      refine absurd closes (unclosed _ _ ?_)
      intro position reached within
      cases Nat.le_antisymm reached within
      exact ⟨'"', closes.quote, rfl⟩
  | bare keyless unclosed filled run ends => exact ⟨run, ends⟩

/-- These are the tokens of a line: they are what the pattern finds, and no others can be read by
the rule for their ends. -/
structure TellsApart (chars : List Char) (tokens : List (List Char)) : Prop where
  found : Pattern.matchesIn Pattern.token chars.length chars = tokens
  ruled : ∀ others, ReadFrom chars 0 others ↔ others = tokens
  quoting : ∀ token ∈ tokens, QuotesBlanks token
  /-- A word on which no quote closes is split at its blanks. -/
  splitting : ∀ start stop, EndsAt chars start stop →
    (∀ opening closing,
      (∀ position, start ≤ position → position ≤ opening → Solid chars position) →
        ¬ Closes chars opening closing) →
    (∀ position, start ≤ position → position < stop → Solid chars position) ∧
      ¬ Solid chars stop

end Token

/-- The tokens of a line can be told apart by trying the pattern, and without trying anything. -/
theorem tokens_tellApart (line : String) :
    Token.TellsApart line.toList ((tokens line).map String.toList) := by
  rw [← all_toList]
  have reads := Token.readFrom_all line.toList 0
  rw [List.drop_zero] at reads
  constructor
  · exact Pattern.matchesIn_token line.toList 0
  · intro others
    constructor
    · intro again
      exact again.unique reads
    · rintro rfl
      exact reads
  · intro token member
    exact Token.quotesBlanks_of_mem_all member
  · intro start stop ends unclosed
    exact ends.solid_of_unclosed unclosed

end SlashBot

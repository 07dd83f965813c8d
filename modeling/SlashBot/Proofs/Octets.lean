import SlashBot.Json.Reader

/-!
# Reading octets back

The octets of a text are read back as the text. A reader that stands between two characters
reads the octets of one character, gives this character, and stands between two again. A
document that holds a record starts in such a way that its octets are taken for nothing but
UTF-8, so it means the same as a text and as octets.
-/

namespace SlashBot

namespace Text

open Utf8Reader

variable {rest : List UInt8} {bits following n : Nat} {low high octet : UInt8}

/-! ## Steps of the reader -/

/-- An octet in the range continues a sequence of which more is to follow. -/
theorem readAll_continue (inRange : low.toNat ≤ octet.toNat ∧ octet.toNat ≤ high.toNat)
    (more : 1 < following) : (inside bits following low high).readAll (octet :: rest) =
      (inside (bits * 64 + octet.toNat % 64) (following - 1) 0x80 0xbf).readAll rest := by
  have fits : low ≤ octet ∧ octet ≤ high := inRange
  rw [readAll]
  simp only [step, fits, and_self, if_true, Nat.not_le.mpr more, if_false, List.nil_append]

/-- The last octet of a sequence gives the character. -/
theorem readAll_end (inRange : low.toNat ≤ octet.toNat ∧ octet.toNat ≤ high.toNat) :
    (inside bits 1 low high).readAll (octet :: rest) =
      some (Char.ofNat (bits * 64 + octet.toNat % 64)) :: between.readAll rest := by
  have fits : low ≤ octet ∧ octet ≤ high := inRange
  rw [readAll]
  simp only [step, fits, and_self, if_true, Nat.le_refl, List.cons_append, List.nil_append]

theorem readAll_between : between.readAll (octet :: rest) =
    (start octet).1 ++ (start octet).2.readAll rest := by
  rw [readAll, step]

theorem start_of_one (small : octet.toNat < 0x80) :
    start octet = ([some (Char.ofNat octet.toNat)], between) := by
  simp only [start]
  rw [if_pos small]

theorem start_of_two (wide : 0xc2 ≤ octet.toNat) (narrow : octet.toNat < 0xe0) :
    start octet = ([], inside (octet.toNat - 0xc0) 1 0x80 0xbf) := by
  simp only [start]
  rw [if_neg (by omega), if_neg (by omega), if_pos narrow]

/-- The second of three octets is in its range unless the form is overlong or the number is a
surrogate. -/
theorem start_of_three (octet : UInt8) (wide : 0xe0 ≤ octet.toNat) (narrow : octet.toNat < 0xf0) :
    ∃ low high : UInt8, start octet = ([], inside (octet.toNat - 0xe0) 2 low high) ∧
      ∀ second, 0x80 ≤ second → second ≤ 0xbf → (octet.toNat = 0xe0 → 0xa0 ≤ second) →
        (octet.toNat = 0xed → second ≤ 0x9f) → low.toNat ≤ second ∧ second ≤ high.toNat := by
  simp only [start, beq_iff_eq]
  rw [if_neg (by omega), if_neg (by omega), if_neg (by omega)]
  by_cases first : octet.toNat = 0xe0
  · rw [if_pos first, first]
    exact ⟨_, _, rfl, fun second _ above short _ => ⟨short rfl, above⟩⟩
  · rw [if_neg first]
    by_cases last : octet.toNat = 0xed
    · rw [if_pos last, last]
      exact ⟨_, _, rfl, fun second below _ _ proper => ⟨below, proper rfl⟩⟩
    · rw [if_neg last, if_pos narrow]
      exact ⟨_, _, rfl, fun second below above _ _ => ⟨below, above⟩⟩

/-- The second of four octets is in its range unless the form is overlong or the number is
beyond the last character. -/
theorem start_of_four (octet : UInt8) (wide : 0xf0 ≤ octet.toNat) (narrow : octet.toNat ≤ 0xf4) :
    ∃ low high : UInt8, start octet = ([], inside (octet.toNat - 0xf0) 3 low high) ∧
      ∀ second, 0x80 ≤ second → second ≤ 0xbf → (octet.toNat = 0xf0 → 0x90 ≤ second) →
        (octet.toNat = 0xf4 → second ≤ 0x8f) → low.toNat ≤ second ∧ second ≤ high.toNat := by
  simp only [start, beq_iff_eq]
  rw [if_neg (by omega), if_neg (by omega), if_neg (by omega), if_neg (by omega),
    if_neg (by omega), if_neg (by omega)]
  by_cases first : octet.toNat = 0xf0
  · rw [if_pos first, first]
    exact ⟨_, _, rfl, fun second _ above short _ => ⟨short rfl, above⟩⟩
  · rw [if_neg first]
    by_cases last : octet.toNat = 0xf4
    · rw [if_neg (by omega), if_pos last, last]
      exact ⟨_, _, rfl, fun second below _ _ proper => ⟨below, proper rfl⟩⟩
    · rw [if_pos (by omega)]
      exact ⟨_, _, rfl, fun second below above _ _ => ⟨below, above⟩⟩

/-! ## Characters -/

theorem toNat_ofNat_of_lt (small : n < 256) : (UInt8.ofNat n).toNat = n := by
  rw [UInt8.toNat_ofNat', Nat.mod_eq_of_lt small]

theorem readAll_one (small : n ≤ 0x7f) :
    between.readAll (UInt8.ofNat n :: rest) = some (Char.ofNat n) :: between.readAll rest := by
  have first : (UInt8.ofNat n).toNat = n := toNat_ofNat_of_lt (by omega)
  rw [readAll_between, start_of_one (by omega), first]
  rfl

/-- An octet that follows another one in a sequence. -/
theorem toNat_following : (UInt8.ofNat (n % 64 + 128)).toNat = n % 64 + 128 :=
  toNat_ofNat_of_lt (by omega)

theorem readAll_middle (more : 1 < following) :
    (inside bits following 0x80 0xbf).readAll (UInt8.ofNat (n % 64 + 128) :: rest) =
      (inside (bits * 64 + n % 64) (following - 1) 0x80 0xbf).readAll rest := by
  have inRange : 0x80 ≤ n % 64 + 128 ∧ n % 64 + 128 ≤ 0xbf := by omega
  have lowest : (n % 64 + 128) % 64 = n % 64 := by omega
  rw [readAll_continue (by rw [toNat_following]; exact inRange) more, toNat_following, lowest]

theorem readAll_last :
    (inside bits 1 0x80 0xbf).readAll (UInt8.ofNat (n % 64 + 128) :: rest) =
      some (Char.ofNat (bits * 64 + n % 64)) :: between.readAll rest := by
  have inRange : 0x80 ≤ n % 64 + 128 ∧ n % 64 + 128 ≤ 0xbf := by omega
  have lowest : (n % 64 + 128) % 64 = n % 64 := by omega
  rw [readAll_end (by rw [toNat_following]; exact inRange), toNat_following, lowest]

theorem readAll_two (wide : 0x7f < n) (narrow : n ≤ 0x7ff) :
    between.readAll (UInt8.ofNat (n / 64 % 32 + 192) :: UInt8.ofNat (n % 64 + 128) :: rest) =
      some (Char.ofNat n) :: between.readAll rest := by
  have first : (UInt8.ofNat (n / 64 % 32 + 192)).toNat = n / 64 % 32 + 192 :=
    toNat_ofNat_of_lt (by omega)
  have number : (n / 64 % 32 + 192 - 0xc0) * 64 + n % 64 = n := by omega
  rw [readAll_between, start_of_two (by omega) (by omega), List.nil_append, readAll_last, first,
    number]

/-- Surrogates are no characters, so the second octet is in its range. -/
theorem readAll_three (wide : 0x7ff < n) (narrow : n ≤ 0xffff) (proper : n < 0xd800 ∨ 0xdfff < n) :
    between.readAll (UInt8.ofNat (n / 4096 % 16 + 224) :: UInt8.ofNat (n / 64 % 64 + 128) ::
      UInt8.ofNat (n % 64 + 128) :: rest) = some (Char.ofNat n) :: between.readAll rest := by
  have first : (UInt8.ofNat (n / 4096 % 16 + 224)).toNat = n / 4096 % 16 + 224 :=
    toNat_ofNat_of_lt (by omega)
  have lowest : (n / 64 % 64 + 128) % 64 = n / 64 % 64 := by omega
  have number : ((n / 4096 % 16 + 224 - 0xe0) * 64 + n / 64 % 64) * 64 + n % 64 = n := by omega
  obtain ⟨low, high, started, ranges⟩ :=
    start_of_three (UInt8.ofNat (n / 4096 % 16 + 224)) (by omega) (by omega)
  have inRange := ranges (n / 64 % 64 + 128) (by omega) (by omega) (by omega) (by omega)
  rw [readAll_between, started, List.nil_append,
    readAll_continue (by rw [toNat_following]; exact inRange) (by omega), toNat_following, lowest,
    readAll_last, first, number]

/-- No character is beyond the last one, so the second octet is in its range. -/
theorem readAll_four (wide : 0xffff < n) (narrow : n < 0x110000) :
    between.readAll (UInt8.ofNat (n / 262144 % 8 + 240) :: UInt8.ofNat (n / 4096 % 64 + 128) ::
      UInt8.ofNat (n / 64 % 64 + 128) :: UInt8.ofNat (n % 64 + 128) :: rest) =
        some (Char.ofNat n) :: between.readAll rest := by
  have first : (UInt8.ofNat (n / 262144 % 8 + 240)).toNat = n / 262144 % 8 + 240 :=
    toNat_ofNat_of_lt (by omega)
  have lowest : (n / 4096 % 64 + 128) % 64 = n / 4096 % 64 := by omega
  have number : (((n / 262144 % 8 + 240 - 0xf0) * 64 + n / 4096 % 64) * 64 + n / 64 % 64) * 64 +
      n % 64 = n := by omega
  obtain ⟨low, high, started, ranges⟩ :=
    start_of_four (UInt8.ofNat (n / 262144 % 8 + 240)) (by omega) (by omega)
  have inRange := ranges (n / 4096 % 64 + 128) (by omega) (by omega) (by omega) (by omega)
  rw [readAll_between, started, List.nil_append,
    readAll_continue (by rw [toNat_following]; exact inRange) (by omega), toNat_following, lowest,
    readAll_middle (by omega), readAll_last, first, number]

/-- The octets of a character are read as this character. -/
theorem readAll_utf8EncodeChar (c : Char) (rest : List UInt8) :
    between.readAll (String.utf8EncodeChar c ++ rest) = some c :: between.readAll rest := by
  have valid : c.val.toNat < 0xd800 ∨ 0xdfff < c.val.toNat ∧ c.val.toNat < 0x110000 := c.valid
  have code : Char.ofNat c.val.toNat = c := Char.ofNat_toNat c
  rw [String.utf8EncodeChar]
  generalize c.val.toNat = n at valid code
  rw [← code]
  split
  · exact readAll_one ‹_›
  · split
    · exact readAll_two (by omega) ‹_›
    · split
      · exact readAll_three (by omega) ‹_› (by omega)
      · exact readAll_four (by omega) (by omega)

theorem readAll_encodeUtf8 (text : List Char) :
    between.readAll (encodeUtf8 text) = text.map some := by
  induction text with
  | nil => rfl
  | cons c text ih =>
      rw [encodeUtf8, List.flatMap_cons, readAll_utf8EncodeChar, List.map_cons]
      exact congrArg (some c :: ·) ih

/-- The octets of a text are read as this text. -/
theorem decodeUtf8?_encodeUtf8 (text : List Char) : decodeUtf8? (encodeUtf8 text) = some text := by
  rw [decodeUtf8?, readAll_encodeUtf8, List.mapM_map]
  exact List.mapM_pure.trans (congrArg some (List.map_id text))

end Text

namespace Json

open Text

variable {text rest : List Char} {fuel : Nat} {value : Value} {entries : List (Value × Value)}

/-! ## The start of a record -/

theorem skipSpace_cons (c : Char) (rest : List Char) :
    skipSpace (c :: rest) = if isSpace c then skipSpace rest else c :: rest := by
  rw [skipSpace, List.dropWhile_cons]
  rfl

theorem readUnsigned_ne_map {negative : Bool} :
    readUnsigned negative text ≠ .ok (.map entries, rest) := by
  intro read
  rw [readUnsigned.eq_def] at read
  simp only at read
  split at read
  all_goals
    split at read
    · simp at read
    · split at read
      · split at read <;> simp at read
      · simp at read

/-- A value without parts is no record. -/
theorem readAtom_ne_map : readAtom text ≠ .ok (.map entries, rest) := by
  intro read
  rw [readAtom.eq_def] at read
  split at read
  · rename_i named
    cases read
    obtain ⟨⟨word, value⟩, listed, found⟩ := List.exists_of_findSome?_eq_some named
    obtain ⟨after, -, same⟩ := Option.map_eq_some_iff.mp found
    cases same
    revert listed
    simp [namedValues]
  · split at read
    · split at read <;> cases read
    · exact readUnsigned_ne_map read
    · exact readUnsigned_ne_map read

/-- Items form a list and no record. -/
theorem readItems_ne_map {reversed : List Value} :
    readItems fuel reversed text ≠ .ok (.map entries, rest) := by
  induction fuel generalizing reversed text with
  | zero =>
      rw [readItems]
      nofun
  | succ fuel ih =>
      rw [readItems]
      split
      · nofun
      · split
        · exact ih
        · nofun
        · nofun

theorem of_readEntries_ok {held : List (Value × Value)} {result : Value × List Char}
    (read : readEntries fuel held text = .ok result) : ∃ more, text = '"' :: more := by
  cases fuel with
  | zero =>
      rw [readEntries] at read
      cases read
  | succ fuel =>
      rw [readEntries.eq_def] at read
      simp only at read
      split at read
      · exact ⟨_, rfl⟩
      · cases read

theorem toNat_ne_zero_of_isSpace {c : Char} (space : isSpace c = true) : c.toNat ≠ 0 := by
  simp only [isSpace, Bool.or_eq_true, beq_iff_eq] at space
  rcases space with ((rfl | rfl) | rfl) | rfl <;> decide

/-- A text whose first part is not a zero does not start with a zero. -/
theorem of_skipSpace_eq {c : Char} {more : List Char} (skipped : skipSpace text = c :: more)
    (filled : c.toNat ≠ 0) : ∃ d rest, text = d :: rest ∧ d.toNat ≠ 0 := by
  cases text with
  | nil => cases skipped
  | cons d rest =>
      refine ⟨d, rest, rfl, ?_⟩
      rw [skipSpace_cons] at skipped
      split at skipped
      · exact toNat_ne_zero_of_isSpace ‹_›
      · rw [(List.cons.inj skipped).1]
        exact filled

/-- A record starts with a brace, which no zero follows. -/
theorem of_readValue_map (read : readValue fuel text = .ok (.map entries, rest)) :
    ∃ d more, text = '{' :: d :: more ∧ d.toNat ≠ 0 := by
  cases fuel with
  | zero =>
      rw [readValue] at read
      cases read
  | succ fuel =>
      rw [readValue.eq_def] at read
      simp only at read
      split at read
      · split at read
        · cases read
        · exact absurd read readItems_ne_map
      · rename_i behind
        have next : ∃ c more, skipSpace behind = c :: more ∧ c.toNat ≠ 0 := by
          split at read
          · exact ⟨_, _, ‹_›, by decide⟩
          · obtain ⟨more, quoted⟩ := of_readEntries_ok read
            exact ⟨_, _, quoted, by decide⟩
        obtain ⟨c, more, skipped, filled⟩ := next
        obtain ⟨d, rest, rfl, notZero⟩ := of_skipSpace_eq skipped filled
        exact ⟨d, rest, rfl, notZero⟩
      · exact absurd read readAtom_ne_map

/-- A document that holds a record starts with a space or a brace, and no zero follows. -/
theorem of_ofDocument_map (read : ofDocument text = .ok (.map entries)) :
    ∃ c d more, text = c :: d :: more ∧ (isSpace c = true ∨ c = '{') ∧ d.toNat ≠ 0 := by
  rw [ofDocument] at read
  have record : ∃ rest, readValue (2 * text.length + 2) (skipSpace text) =
      .ok (.map entries, rest) := by
    split at read
    · cases read
    · split at read
      · cases read
        exact ⟨_, ‹_›⟩
      · cases read
  obtain ⟨rest, held⟩ := record
  obtain ⟨d, more, skipped, filled⟩ := of_readValue_map held
  cases text with
  | nil => cases skipped
  | cons c text =>
      rw [skipSpace_cons] at skipped
      split at skipped
      · rename_i space
        obtain ⟨next, rest, rfl, notZero⟩ := of_skipSpace_eq skipped (by decide)
        exact ⟨c, next, rest, rfl, .inl space, notZero⟩
      · cases skipped
        exact ⟨_, d, more, rfl, .inr rfl, filled⟩

/-! ## The encoding of a record -/

/-- No mark starts with an ASCII character. -/
theorem find?_marks_eq_none {first : UInt8} {rest : List UInt8} (ascii : first < 0x80)
    (filled : first ≠ 0) :
    (marks.find? fun (mark, _) => mark.isPrefixOf (first :: rest)) = none := by
  have differs {octet : UInt8} (beyond : ¬ octet < 0x80) : (octet == first) = false := by
    rw [beq_eq_false_iff_ne]
    rintro rfl
    exact beyond ascii
  have zero : ((0 : UInt8) == first) = false := beq_eq_false_iff_ne.mpr filled.symm
  simp [marks, List.find?, List.isPrefixOf, zero, differs]

/-- Octets of which the first is ASCII and the first two are no zeros are UTF-8. -/
theorem decodeOctets?_eq {first second : UInt8} {more : List UInt8} (ascii : first < 0x80)
    (filled : first ≠ 0) (next : second ≠ 0) :
    decodeOctets? (first :: second :: more) = decodeUtf8? (first :: second :: more) := by
  rw [decodeOctets?, find?_marks_eq_none ascii filled]
  simp only [decodeUnmarked?, List.map_cons, beq_eq_false_iff_ne.mpr filled,
    beq_eq_false_iff_ne.mpr next]

/-- The octets of a character do not start with a zero, unless it is the zero itself. -/
theorem exists_utf8EncodeChar_eq {d : Char} (filled : d.toNat ≠ 0) :
    ∃ octet more, String.utf8EncodeChar d = octet :: more ∧ octet ≠ 0 := by
  have nonzero {n : Nat} (small : n < 256) (positive : n ≠ 0) : UInt8.ofNat n ≠ 0 := by
    intro zero
    apply positive
    rw [← toNat_ofNat_of_lt small, zero]
    rfl
  have valid : d.val.toNat ≠ 0 := filled
  rw [String.utf8EncodeChar]
  split
  · exact ⟨_, _, rfl, nonzero (by omega) valid⟩
  · split
    · exact ⟨_, _, rfl, nonzero (by omega) (by omega)⟩
    · split
      · exact ⟨_, _, rfl, nonzero (by omega) (by omega)⟩
      · exact ⟨_, _, rfl, nonzero (by omega) (by omega)⟩

/-- A text that holds a record means the same in UTF-8. -/
theorem ofOctets_encodeUtf8 {content : String} (read : ofText content = .ok (.map entries)) :
    ofOctets (encodeUtf8 content.toList) = .ok (.map entries) := by
  have held : ofDocument content.toList = .ok (.map entries) := by
    rw [ofText] at read
    split at read
    · rename_i c rest same
      rw [same]
      split at read
      · cases read
      · exact read
    · cases read
  obtain ⟨c, d, more, same, start, filled⟩ := of_ofDocument_map held
  have first : ∃ octet, String.utf8EncodeChar c = [octet] ∧ octet < 0x80 ∧ octet ≠ 0 := by
    rcases start with space | rfl
    · simp only [isSpace, Bool.or_eq_true, beq_iff_eq] at space
      rcases space with ((rfl | rfl) | rfl) | rfl <;> exact ⟨_, rfl, by decide, by decide⟩
    · exact ⟨_, rfl, by decide, by decide⟩
  obtain ⟨octet, only, ascii, notZero⟩ := first
  obtain ⟨next, behind, second, nextNotZero⟩ := exists_utf8EncodeChar_eq filled
  have octets : encodeUtf8 content.toList = octet :: next :: (behind ++ encodeUtf8 more) := by
    rw [same, encodeUtf8, List.flatMap_cons, List.flatMap_cons, only, second]
    rfl
  have decoded : decodeOctets? (encodeUtf8 content.toList) = some content.toList := by
    rw [octets, decodeOctets?_eq ascii notZero nextNotZero, ← octets, decodeUtf8?_encodeUtf8]
  rw [ofOctets, decoded]
  exact held

end Json

end SlashBot

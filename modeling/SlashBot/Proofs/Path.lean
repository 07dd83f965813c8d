import Mathlib.Data.List.TakeDrop
import Mathlib.Data.List.TakeWhile
import SlashBot.Api.Url

/-!
# Paths

A path is made of the segments between its slashes. It is settled if none of them is a dot
segment and every character may stand as it is. A settled path is sent as it is, every URL
that is read from a text has one, and a settled path behind the path of a base is again
settled. Where the last segment is a dot segment, that segment, or two of them, are lost.
-/

namespace SlashBot

namespace Text

variable {safe : Char → Bool} {text more : List Char} {c : Char}

theorem splitWhere_eq (test : Char → Bool) (text : List Char) :
    splitWhere test text = text.splitOnP test := by
  induction text with
  | nil => rfl
  | cons c rest ih =>
      rw [splitWhere] at ih ⊢
      rw [List.foldr_cons, ih, List.splitOnP_cons_eq_if_modifyHead]
      split
      · rfl
      · cases split : rest.splitOnP test with
        | nil => exact absurd split (List.splitOnP_ne_nil test rest)
        | cons piece more => rfl

theorem not_of_mem_splitWhere {test : Char → Bool} {text piece : List Char}
    (member : piece ∈ splitWhere test text) : ∀ c ∈ piece, test c = false := by
  rw [splitWhere_eq] at member
  induction text generalizing piece with
  | nil =>
      rw [List.splitOnP_nil, List.mem_singleton] at member
      simp [member]
  | cons d text ih =>
      rw [List.splitOnP_cons_eq_if_modifyHead] at member
      split at member
      · rcases List.mem_cons.mp member with rfl | later
        · simp
        · exact ih later
      · rename_i refused
        obtain ⟨first, more, pieces⟩ :=
          List.exists_cons_of_ne_nil (List.splitOnP_ne_nil test text)
        rw [pieces] at ih member
        rw [List.modifyHead_cons] at member
        rcases List.mem_cons.mp member with rfl | later
        · rw [List.forall_mem_cons]
          exact ⟨Bool.eq_false_iff.mpr refused, ih List.mem_cons_self⟩
        · exact ih (List.mem_cons_of_mem first later)

/-! ## Percent encoding -/

theorem percentEncode_append :
    percentEncode safe (text ++ more) = percentEncode safe text ++ percentEncode safe more :=
  List.flatMap_append

/-- A text of safe characters stands for itself. -/
theorem percentEncode_eq_self (standing : ∀ c ∈ text, safe c = true) :
    percentEncode safe text = text := by
  induction text with
  | nil => rfl
  | cons c rest ih =>
      rw [percentEncode, List.flatMap_cons, standing c (by simp), if_pos rfl]
      exact congrArg (c :: ·) (ih fun other member => standing other (by simp [member]))

theorem isAsciiAlphanumeric_upperHexDigit {n : Nat} (small : n < 16) :
    isAsciiAlphanumeric (upperHexDigit n) = true := by
  have every : ∀ m < 16, isAsciiAlphanumeric (upperHexDigit m) = true := by decide
  exact every n small

/-- What is not safe is written with percent signs, letters and digits. -/
theorem of_mem_percentEncode (member : c ∈ percentEncode safe text) :
    safe c = true ∧ c ∈ text ∨ c = '%' ∨ isAsciiAlphanumeric c = true := by
  obtain ⟨origin, inText, written⟩ := List.mem_flatMap.mp member
  split at written
  · rename_i standing
    rw [List.mem_singleton.mp written]
    exact .inl ⟨standing, inText⟩
  · obtain ⟨octet, -, inOctet⟩ := List.mem_flatMap.mp written
    have high : octet.toNat / 16 < 16 := by
      have := octet.toNat_lt
      omega
    simp only [percentOctet, List.mem_cons, List.not_mem_nil, or_false] at inOctet
    rcases inOctet with rfl | rfl | rfl
    · exact .inr (.inl rfl)
    · exact .inr (.inr (isAsciiAlphanumeric_upperHexDigit high))
    · exact .inr (.inr (isAsciiAlphanumeric_upperHexDigit (Nat.mod_lt _ (by decide))))

theorem utf8EncodeChar_ne_nil : String.utf8EncodeChar c ≠ [] := by
  rw [String.utf8EncodeChar]
  split
  · nofun
  · split
    · nofun
    · split <;> nofun

/-- A text whose encoding needs no percent sign is its own encoding. -/
theorem percentEncode_eq_of_not_mem (bare : '%' ∉ percentEncode safe text) :
    percentEncode safe text = text := by
  apply percentEncode_eq_self
  intro c member
  cases standing : safe c with
  | true => rfl
  | false =>
      cases octets : String.utf8EncodeChar c with
      | nil => exact absurd octets utf8EncodeChar_ne_nil
      | cons octet rest =>
          refine absurd (List.mem_flatMap.mpr ⟨c, member, ?_⟩) bare
          simp [standing, octets, percentOctet]

theorem percentEncode_eq_nil_iff : percentEncode safe text = [] ↔ text = [] := by
  constructor
  · intro empty
    rw [← percentEncode_eq_of_not_mem (by simp [empty] : '%' ∉ percentEncode safe text), empty]
  · rintro rfl
    rfl

end Text

namespace Url

open Text

/-! ## Segments -/

/-- A segment has no slash, and it is no dot segment. -/
structure IsSegment (segment : List Char) : Prop where
  chars : ∀ c ∈ segment, isPathChar c = true ∧ c ≠ '/'
  notDot : segment ≠ ['.']
  notDots : segment ≠ ['.', '.']

/-- A path is settled if every character may stand as it is and there are no dot segments. -/
structure IsSettled (path : List Char) : Prop where
  chars : ∀ c ∈ path, isPathChar c = true
  notDot : ['.'] ∉ path.splitOn '/'
  notDots : ['.', '.'] ∉ path.splitOn '/'

variable {path front rest segment : List Char} {segments kept : List (List Char)}

theorem not_mem_of_mem_splitOn (member : segment ∈ path.splitOn '/') : '/' ∉ segment := by
  rw [List.splitOn_eq_splitOnP, ← splitWhere_eq] at member
  intro inside
  cases not_of_mem_splitWhere member '/' inside

namespace IsSettled

theorem nil : IsSettled [] where
  chars c member := by cases member
  notDot := by decide
  notDots := by decide

/-- A path is settled if the parts before and after a slash are. -/
theorem append_cons_iff :
    IsSettled (front ++ '/' :: rest) ↔ IsSettled front ∧ IsSettled rest := by
  have slash : isPathChar '/' = true := by decide
  constructor
  · rintro ⟨chars, notDot, notDots⟩
    rw [List.splitOn_append_cons_self, List.mem_append, not_or] at notDot notDots
    exact ⟨⟨fun c member => chars c (by simp [member]), notDot.1, notDots.1⟩,
      ⟨fun c member => chars c (by simp [member]), notDot.2, notDots.2⟩⟩
  · rintro ⟨first, second⟩
    refine ⟨?_, ?_, ?_⟩
    · intro c member
      rcases List.mem_append.mp member with inFirst | later
      · exact first.chars c inFirst
      · rcases List.mem_cons.mp later with rfl | inSecond
        · exact slash
        · exact second.chars c inSecond
    · rw [List.splitOn_append_cons_self, List.mem_append, not_or]
      exact ⟨first.notDot, second.notDot⟩
    · rw [List.splitOn_append_cons_self, List.mem_append, not_or]
      exact ⟨first.notDots, second.notDots⟩

theorem cons_iff : IsSettled ('/' :: rest) ↔ IsSettled rest :=
  append_cons_iff.trans (and_iff_right nil)

end IsSettled

theorem IsSegment.not_mem (single : IsSegment segment) : '/' ∉ segment :=
  fun member => (single.chars '/' member).2 rfl

/-- A segment is a settled path. -/
theorem IsSegment.isSettled (single : IsSegment segment) : IsSettled segment := by
  refine ⟨fun c member => (single.chars c member).1, ?_, ?_⟩
  · rw [List.splitOn_eq_singleton single.not_mem, List.mem_singleton]
    exact single.notDot.symm
  · rw [List.splitOn_eq_singleton single.not_mem, List.mem_singleton]
    exact single.notDots.symm

/-! ## Dot segments -/

/-- Segments that are no dot segments are all kept. -/
theorem settleSegments_append (kept more : List (List Char)) (notDot : ['.'] ∉ segments)
    (notDots : ['.', '.'] ∉ segments) : settleSegments kept (segments ++ more) =
      settleSegments (segments.reverse ++ kept) more := by
  induction segments generalizing kept with
  | nil => rfl
  | cons segment segments ih =>
      rw [List.mem_cons, not_or] at notDot notDots
      have keeps : settleSegments kept (segment :: segments ++ more) =
          settleSegments (segment :: kept) (segments ++ more) := by
        simp [settleSegments, Ne.symm notDot.1, Ne.symm notDots.1]
      rw [keeps, ih _ notDot.2 notDots.2]
      simp

theorem splitWhere_slash (path : List Char) :
    splitWhere (· == '/') path = path.splitOn '/' := by
  rw [splitWhere_eq, List.splitOn_eq_splitOnP]

/-- A settled path has no dot segments to lose. -/
theorem IsSettled.withoutDots_eq (settled : IsSettled path) : withoutDots path = path := by
  have kept := settleSegments_append [] [] settled.notDot settled.notDots
  rw [List.append_nil, List.append_nil] at kept
  rw [withoutDots, splitWhere_slash, kept, settleSegments, List.reverse_reverse,
    List.intercalate_splitOn]

/-- A point behind a settled path is lost with its slash. -/
theorem IsSettled.withoutDots_dot (settled : IsSettled path) :
    withoutDots (path ++ ['/', '.']) = path := by
  have kept := settleSegments_append [] [['.']] settled.notDot settled.notDots
  have alone : ['.'].splitOn '/' = [['.']] := by decide
  rw [withoutDots, splitWhere_slash, List.splitOn_append_cons_self, alone, kept]
  simp [settleSegments]

/-- Two points behind a settled path are lost with the segment before them. -/
theorem IsSettled.withoutDots_dots (settled : IsSettled path) (single : IsSegment segment) :
    withoutDots (path ++ '/' :: segment ++ ['/', '.', '.']) = path := by
  have whole : IsSettled (path ++ '/' :: segment) :=
    append_cons_iff.mpr ⟨settled, single.isSettled⟩
  have kept := settleSegments_append [] [['.', '.']] whole.notDot whole.notDots
  have alone : ['.', '.'].splitOn '/' = [['.', '.']] := by decide
  rw [withoutDots, splitWhere_slash, List.splitOn_append_cons_self, alone, kept,
    List.splitOn_append_cons_self, List.splitOn_eq_singleton single.not_mem]
  have filled : path.splitOn '/' ≠ [] := List.splitOn_ne_nil '/' path
  simp [settleSegments, filled]

/-- No dot segments are left over. -/
theorem not_mem_settleSegments (segments : List (List Char)) (notDot : ['.'] ∉ kept)
    (notDots : ['.', '.'] ∉ kept) :
    ['.'] ∉ settleSegments kept segments ∧ ['.', '.'] ∉ settleSegments kept segments := by
  induction segments generalizing kept with
  | nil => simp [settleSegments, notDot, notDots]
  | cons segment segments ih =>
      rw [settleSegments]
      split
      · exact ih notDot notDots
      · rename_i notDotFirst
        split
        · split
          · exact ih notDot notDots
          · exact ih (fun member => notDot (List.mem_of_mem_tail member))
              (fun member => notDots (List.mem_of_mem_tail member))
        · rename_i notDotsFirst
          apply ih
          · rw [List.mem_cons, not_or]
            exact ⟨fun same => notDotFirst (by simp [same]), notDot⟩
          · rw [List.mem_cons, not_or]
            exact ⟨fun same => notDotsFirst (by simp [same]), notDots⟩

theorem mem_of_mem_settleSegments (member : segment ∈ settleSegments kept segments) :
    segment ∈ kept ∨ segment ∈ segments := by
  induction segments generalizing kept with
  | nil => simpa [settleSegments] using member
  | cons first segments ih =>
      rw [settleSegments] at member
      split at member
      · rcases ih member with before | after
        · exact .inl before
        · exact .inr (List.mem_cons_of_mem _ after)
      · split at member
        · rcases ih member with before | after
          · split at before
            · exact .inl before
            · exact .inl (List.mem_of_mem_tail before)
          · exact .inr (List.mem_cons_of_mem _ after)
        · rcases ih member with before | after
          · rcases List.mem_cons.mp before with rfl | older
            · exact .inr (by simp)
            · exact .inl older
          · exact .inr (List.mem_cons_of_mem _ after)

/-! ## Paths of URLs -/

theorem isPathChar_of_isAsciiAlphanumeric {c : Char} (plain : isAsciiAlphanumeric c = true) :
    isPathChar c = true := by
  have coded : 48 ≤ c.toNat ∧ c.toNat ≤ 57 ∨ 65 ≤ c.toNat ∧ c.toNat ≤ 90 ∨
      97 ≤ c.toNat ∧ c.toNat ≤ 122 := by
    simp only [isAsciiAlphanumeric, asciiDigit?] at plain
    split at plain
    · exact .inl ‹_›
    · split at plain
      · exact .inr (.inl ‹_›)
      · split at plain
        · exact .inr (.inr ‹_›)
        · cases plain
  simp [isPathChar, isVisibleExcept]
  omega

theorem isPathChar_of_mem_percentEncode {text : List Char} {c : Char}
    (member : c ∈ percentEncode isPathChar text) : isPathChar c = true := by
  rcases of_mem_percentEncode member with standing | rfl | plain
  · exact standing.1
  · decide
  · exact isPathChar_of_isAsciiAlphanumeric plain

theorem percentEncode_intercalate :
    percentEncode isPathChar (['/'].intercalate segments) =
      ['/'].intercalate (segments.map (percentEncode isPathChar)) := by
  induction segments with
  | nil => rfl
  | cons segment segments ih =>
      cases segments with
      | nil => simp
      | cons next more =>
          have slash : percentEncode isPathChar ['/'] = ['/'] := by decide
          rw [List.intercalate_cons_cons, percentEncode_append, percentEncode_append, ih, slash,
            List.map_cons, List.map_cons, List.map_cons, List.intercalate_cons_cons]

/-- A segment stays without slashes when it is encoded. -/
theorem not_mem_percentEncode (bare : '/' ∉ segment) :
    '/' ∉ percentEncode isPathChar segment := by
  intro member
  rcases of_mem_percentEncode member with inSegment | percent | plain
  · exact bare inSegment.2
  · exact absurd percent (by decide)
  · exact absurd plain (by decide)

/-- Whatever a path is, it is settled once it has been brought to the form in which it is
sent. -/
theorem isSettled_percentEncode (path : List Char) :
    IsSettled (percentEncode isPathChar (withoutDots path)) := by
  have chars : ∀ c ∈ percentEncode isPathChar (withoutDots path), isPathChar c = true :=
    fun c member => isPathChar_of_mem_percentEncode member
  rw [withoutDots, splitWhere_slash, percentEncode_intercalate] at chars ⊢
  cases settled : settleSegments [] (path.splitOn '/') with
  | nil => exact .nil
  | cons first more =>
      have clean := not_mem_settleSegments (path.splitOn '/') (by simp : _ ∉ []) (by simp)
      have bare : ∀ segment ∈ settleSegments [] (path.splitOn '/'), '/' ∉ segment := by
        intro segment member
        rcases mem_of_mem_settleSegments member with none | inPath
        · cases none
        · exact not_mem_of_mem_splitOn inPath
      rw [settled] at chars clean bare
      have segments : (['/'].intercalate ((first :: more).map (percentEncode isPathChar))).splitOn
          '/' = (first :: more).map (percentEncode isPathChar) := by
        apply List.splitOn_intercalate
        · intro segment member
          obtain ⟨origin, inSegments, rfl⟩ := List.mem_map.mp member
          exact not_mem_percentEncode (bare origin inSegments)
        · simp
      have kept (dots : List Char) (plain : '%' ∉ dots) (absent : dots ∉ first :: more) :
          dots ∉ (first :: more).map (percentEncode isPathChar) := by
        intro member
        obtain ⟨origin, inSegments, written⟩ := List.mem_map.mp member
        rw [← written] at plain
        rw [percentEncode_eq_of_not_mem plain] at written
        exact absent (written ▸ inSegments)
      refine ⟨chars, ?_, ?_⟩
      · rw [segments]
        exact kept _ (by decide) clean.1
      · rw [segments]
        exact kept _ (by decide) clean.2

theorem of_make_ok {scheme authority path : List Char} {query : Option (List Char)} {url : Url}
    (made : make scheme authority path query = .ok url) :
    url = ⟨scheme, authority, percentEncode isPathChar (withoutDots path),
      query.map (percentEncode isQueryChar)⟩ := by
  rw [make] at made
  split at made
  · cases made
  · exact (Except.ok.inj made).symm

/-- Every URL that is read from a text has a settled path. -/
theorem isSettled_of_ofText {text : List Char} {url : Url} (read : ofText text = .ok url) :
    IsSettled url.path := by
  rw [ofText] at read
  cases settled : settleAuthority (takeScheme text).1 (takeAuthority (takeScheme text).2).1 with
  | error fault =>
      simp only [settled, bind, Except.bind] at read
      split at read <;> cases read
  | ok authority =>
      simp only [settled, bind, Except.bind] at read
      split at read
      · cases read
      · rw [of_make_ok read]
        exact isSettled_percentEncode _

/-! ## Relative addresses -/

/-- No character of a path ends it or makes the URL invalid. -/
theorem of_isPathChar {c : Char} (standing : isPathChar c = true) :
    isControl c = false ∧ c ≠ '?' ∧ c ≠ '#' := by
  simp [isPathChar, isVisibleExcept] at standing
  refine ⟨by simp [isControl]; omega, ?_, ?_⟩
  · rintro rfl
    simp at standing
  · rintro rfl
    simp at standing

theorem splitQuery_eq (plain : ∀ c ∈ path, isPathChar c = true) :
    splitQuery path = (path, none) := by
  have none : ∀ c ∈ path, (c != '?') = true :=
    fun c member => bne_iff_ne.mpr (of_isPathChar (plain c member)).2.1
  rw [splitQuery, List.span_eq_takeWhile_dropWhile, List.takeWhile_eq_self_iff.mpr none,
    List.dropWhile_eq_nil_iff.mpr none]

/-- A path that starts with a single slash is read as nothing but a path, if it is not too
long. -/
theorem ofText_path_eq (plain : ∀ c ∈ '/' :: rest, isPathChar c = true)
    (single : rest.head? ≠ some '/') :
    ofText ('/' :: rest) = if ('/' :: rest).length > maxLength then .error .invalidUrl
      else .ok ⟨[], [], percentEncode isPathChar (withoutDots ('/' :: rest)), none⟩ := by
  have printable : ('/' :: rest).any isControl = false :=
    List.any_eq_false.mpr fun c member => by simp [(of_isPathChar (plain c member)).1]
  have scheme : takeScheme ('/' :: rest) = ([], '/' :: rest) := by
    have first : isAsciiAlphanumeric '/' = false := by decide
    simp [takeScheme, List.span_eq_takeWhile_dropWhile, first]
  have separate : takeAuthority ('/' :: rest) = ([], '/' :: rest) ∧
      isMisplaced ('/' :: rest) = false := by
    cases rest with
    | nil => exact ⟨rfl, rfl⟩
    | cons c rest =>
        rw [List.head?_cons, ne_eq, Option.some.injEq] at single
        simp [takeAuthority, isMisplaced, List.isPrefixOf, single, Ne.symm single]
  have fragment : ('/' :: rest).takeWhile (· != '#') = '/' :: rest :=
    List.takeWhile_eq_self_iff.mpr
      fun c member => bne_iff_ne.mpr (of_isPathChar (plain c member)).2.2
  have settled : settleAuthority [] [] = .ok [] := rfl
  rw [ofText, scheme]
  simp only [printable, Bool.or_false, decide_eq_true_eq, separate, fragment, splitQuery_eq plain,
    settled, make, bind, Except.bind]
  split <;> rfl

theorem ofText_path {url : Url} (plain : ∀ c ∈ '/' :: rest, isPathChar c = true)
    (single : rest.head? ≠ some '/') (read : ofText ('/' :: rest) = .ok url) :
    url = ⟨[], [], percentEncode isPathChar (withoutDots ('/' :: rest)), none⟩ := by
  rw [ofText_path_eq plain single] at read
  split at read
  · cases read
  · exact (Except.ok.inj read).symm

/-! ## Paths behind a base -/

/-- A base URL to whose path others are appended. -/
structure IsBase (base : Url) : Prop where
  path : IsSettled base.path
  query : base.query = none

variable {base : Url}

/-- What is in front of an appended path ends with a slash. -/
theorem IsBase.exists_front (plain : base.IsBase) :
    ∃ front, IsSettled front ∧ base.front = front ++ ['/'] := by
  rcases List.eq_nil_or_concat base.path with empty | ⟨start, last, path⟩
  · exact ⟨[], .nil, by simp [front, target, plain.query, empty]⟩
  · have settled := plain.path
    rw [path, List.concat_eq_append] at settled
    by_cases slash : last = '/'
    · subst slash
      exact ⟨start, (IsSettled.append_cons_iff.mp settled).1,
        by simp [front, target, plain.query, path]⟩
    · exact ⟨start ++ [last], settled, by simp [front, target, plain.query, path, slash]⟩

theorem IsBase.isSettled_front_append (plain : base.IsBase) (settled : IsSettled rest) :
    IsSettled (base.front ++ rest) := by
  obtain ⟨start, startSettled, ending⟩ := plain.exists_front
  rw [ending, List.append_assoc]
  exact IsSettled.append_cons_iff.mpr ⟨startSettled, settled⟩

/-- A settled path is appended to a base, if the whole is not too long. -/
theorem IsBase.resolve_path_eq (plain : base.IsBase) (settled : IsSettled rest)
    (single : rest.head? ≠ some '/') :
    base.resolve ⟨[], [], '/' :: rest, none⟩ =
      if (base.front ++ rest).length > maxLength then .error .invalidUrl
      else make base.scheme base.authority (base.front ++ rest) none := by
  have whole := plain.isSettled_front_append settled
  have appended : ('/' :: rest).dropWhile (· == '/') = rest := by
    cases rest with
    | nil => rfl
    | cons c rest =>
        rw [List.head?_cons, ne_eq, Option.some.injEq] at single
        simp [single]
  have target : Url.target ⟨[], [], '/' :: rest, none⟩ = '/' :: rest := by simp [Url.target]
  have relative : (⟨[], [], '/' :: rest, none⟩ : Url).isAbsolute = false := rfl
  simp [resolve, relative, join, target, appended, splitQuery_eq whole.chars]

/-- A settled path is appended to a base as it is. -/
theorem IsBase.resolve_path {url : Url} (plain : base.IsBase) (settled : IsSettled rest)
    (single : rest.head? ≠ some '/')
    (resolved : base.resolve ⟨[], [], '/' :: rest, none⟩ = .ok url) :
    url = ⟨base.scheme, base.authority, base.front ++ rest, none⟩ := by
  have whole := plain.isSettled_front_append settled
  rw [plain.resolve_path_eq settled single] at resolved
  split at resolved
  · cases resolved
  · rw [of_make_ok resolved, whole.withoutDots_eq, percentEncode_eq_self whole.chars]
    rfl

/-! ## Numbers and names -/

variable {c : Char}

theorem ne_slash_of_isUnreserved (plain : isUnreserved c = true ∨ c = '%') :
    isPathChar c = true ∧ c ≠ '/' := by
  constructor
  · rcases plain with plain | rfl
    · simp only [isUnreserved, Bool.or_eq_true, beq_iff_eq] at plain
      rcases plain with (((letter | rfl) | rfl) | rfl) | rfl
      · exact isPathChar_of_isAsciiAlphanumeric letter
      all_goals decide
    · decide
  · rintro rfl
    revert plain
    decide

theorem isSegment_of_isUnreserved (plain : ∀ c ∈ segment, isUnreserved c = true ∨ c = '%')
    (notDot : segment ≠ ['.']) (notDots : segment ≠ ['.', '.']) : IsSegment segment :=
  ⟨fun c member => ne_slash_of_isUnreserved (plain c member), notDot, notDots⟩

theorem isUnreserved_of_isAsciiAlphanumeric (plain : isAsciiAlphanumeric c = true) :
    isUnreserved c = true := by
  simp [isUnreserved, plain]

/-- A word of letters and digits is a segment. -/
theorem isSegment_of_letters (letters : segment.all isAsciiAlphanumeric = true) :
    IsSegment segment := by
  rw [List.all_eq_true] at letters
  apply isSegment_of_isUnreserved
  · intro c member
    exact .inl (isUnreserved_of_isAsciiAlphanumeric (letters c member))
  · rintro rfl
    exact absurd (letters '.' (by simp)) (by decide)
  · rintro rfl
    exact absurd (letters '.' (by simp)) (by decide)

theorem isUnreserved_of_isDigit (digit : c.isDigit = true) : isUnreserved c = true := by
  apply isUnreserved_of_isAsciiAlphanumeric
  rw [Char.isDigit, Bool.and_eq_true, decide_eq_true_eq, decide_eq_true_eq, ge_iff_le,
    UInt32.le_iff_toNat_le, UInt32.le_iff_toNat_le] at digit
  have coded : 48 ≤ c.toNat ∧ c.toNat ≤ 57 := digit
  simp [isAsciiAlphanumeric, asciiDigit?, coded]

theorem of_mem_toString {number : Int} (member : c ∈ (toString number).toList) :
    c.isDigit = true ∨ c = '-' := by
  have digits (n : Nat) (member : c ∈ n.repr.toList) : c.isDigit = true := by
    rw [Nat.toList_repr] at member
    exact Nat.isDigit_of_mem_toDigits (by decide) (by decide) member
  rw [Int.toString_eq_repr, Int.repr_eq_if] at member
  split at member
  · exact .inl (digits _ member)
  · rw [String.toList_append, List.mem_append] at member
    rcases member with sign | inDigits
    · exact .inr (by simpa using sign)
    · exact .inl (digits _ inDigits)

/-- A number is a segment. -/
theorem isSegment_toString (number : Int) : IsSegment (toString number).toList := by
  have noDot : '.' ∉ (toString number).toList := by
    intro member
    rcases of_mem_toString member with digit | sign
    · exact absurd digit (by decide)
    · exact absurd sign (by decide)
  apply isSegment_of_isUnreserved
  · intro c member
    rcases of_mem_toString member with digit | rfl
    · exact .inl (isUnreserved_of_isDigit digit)
    · exact .inl (by decide)
  · intro same
    rw [same] at noDot
    simp at noDot
  · intro same
    rw [same] at noDot
    simp at noDot

/-- An encoded name is a segment, unless the name is a dot segment. -/
theorem isSegment_percentComponent {name : List Char} (notDot : name ≠ ['.'])
    (notDots : name ≠ ['.', '.']) : IsSegment (percentComponent name) := by
  have kept (dots : List Char) (plain : '%' ∉ dots) (other : name ≠ dots) :
      percentComponent name ≠ dots := by
    intro written
    rw [← written, percentComponent] at plain
    rw [percentComponent, percentEncode_eq_of_not_mem plain] at written
    exact other written
  apply isSegment_of_isUnreserved
  · intro c member
    rcases of_mem_percentEncode member with standing | percent | letter
    · exact .inl standing.1
    · exact .inr percent
    · exact .inl (isUnreserved_of_isAsciiAlphanumeric letter)
  · exact kept _ (by decide) notDot
  · exact kept _ (by decide) notDots

end Url

end SlashBot

import Mathlib.Data.List.TakeWhile
import SlashBot.Command

/-!
# Tokens

A token is found by looking for its end. If a word goes on with an equals sign and a quote that
closes, then the last such place of the word decides; else a quote at the front does, if it
closes; else the token is the word itself. This is said here without lengths: a token is read in
one of three ways in front of what follows it, and a line is read token by token.
-/

namespace SlashBot

open Text

namespace Text

/-! ## Trimmed texts -/

/-- A text that has no blank at its start and none at its end. -/
structure IsTrimmed (text : List Char) : Prop where
  first : ∀ c ∈ text.head?, isBlank c = false
  last : ∀ c ∈ text.getLast?, isBlank c = false

theorem dropWhile_isBlank_eq_self {text : List Char}
    (first : ∀ c ∈ text.head?, isBlank c = false) : text.dropWhile isBlank = text := by
  cases text with
  | nil => rfl
  | cons c rest => simp [first c rfl]

theorem dropTailWhile_isBlank_eq_self {text : List Char}
    (last : ∀ c ∈ text.getLast?, isBlank c = false) : dropTailWhile isBlank text = text := by
  rw [dropTailWhile, dropWhile_isBlank_eq_self (by simpa using last), List.reverse_reverse]

theorem IsTrimmed.trim_eq {text : List Char} (trimmed : IsTrimmed text) : trim text = text := by
  rw [trim, dropWhile_isBlank_eq_self trimmed.first, dropTailWhile_isBlank_eq_self trimmed.last]

/-- A blank behind a text is lost. -/
theorem IsTrimmed.trim_append {text : List Char} (trimmed : IsTrimmed text) (filled : text ≠ [])
    {c : Char} (blank : isBlank c = true) : trim (text ++ [c]) = text := by
  have first : ∀ d ∈ (text ++ [c]).head?, isBlank d = false := by
    cases text with
    | nil => exact absurd rfl filled
    | cons d rest => exact trimmed.first
  have tail : dropTailWhile isBlank (text ++ [c]) = dropTailWhile isBlank text := by
    simp [dropTailWhile, blank]
  rw [trim, dropWhile_isBlank_eq_self first, tail, dropTailWhile_isBlank_eq_self trimmed.last]

theorem head?_dropWhile_isBlank (text : List Char) :
    ∀ c ∈ (text.dropWhile isBlank).head?, isBlank c = false := by
  intro c first
  have stopped := List.head?_dropWhile_not isBlank text
  rw [first] at stopped
  exact stopped

theorem isTrimmed_trim (text : List Char) : IsTrimmed (trim text) := by
  rw [trim, dropTailWhile]
  constructor
  · intro c first
    rw [List.head?_reverse] at first
    apply head?_dropWhile_isBlank text c
    rw [← List.getLast?_reverse, ← List.takeWhile_append_dropWhile (p := isBlank)
      (l := (text.dropWhile isBlank).reverse), List.getLast?_append, first]
    rfl
  · rw [List.getLast?_reverse]
    exact head?_dropWhile_isBlank _

/-- A text ends without a blank if what is put behind it does. -/
theorem IsTrimmed.append_left {front back : List Char} (trimmed : IsTrimmed back)
    (start : ∀ c ∈ front.head?, isBlank c = false) (filled : back ≠ []) :
    IsTrimmed (front ++ back) := by
  constructor
  · cases front with
    | nil => exact trimmed.first
    | cons c rest => exact start
  · intro c last
    rw [List.getLast?_append, List.getLast?_eq_some_getLast filled] at last
    exact trimmed.last c (by rw [List.getLast?_eq_some_getLast filled]; exact last)

theorem mem_of_mem_trim {text : List Char} {c : Char} (member : c ∈ trim text) : c ∈ text := by
  rw [trim, dropTailWhile, List.mem_reverse] at member
  have inTail := (List.dropWhile_suffix isBlank).subset member
  exact (List.dropWhile_suffix isBlank).subset (List.mem_reverse.mp inTail)

end Text

namespace Token

variable {text front tail rest body : List Char} {c : Char} {size fuel : Nat}

/-! ## Quotes that close -/

/-- A text that may stand between quotes. A backslash takes the next character with it, and that
is no line feed. -/
inductive IsBody : (body : List Char) → Prop where
  | nil : IsBody []
  | plain {c : Char} {body : List Char} (notQuote : c ≠ '"') (notEscape : c ≠ '\\') :
      IsBody body → IsBody (c :: body)
  | escaped {c : Char} {body : List Char} (notFeed : c ≠ '\n') :
      IsBody body → IsBody ('\\' :: c :: body)

@[simp] theorem closingLength?_nil : closingLength? [] = none := rfl

@[simp] theorem closingLength?_quote (rest : List Char) :
    closingLength? ('"' :: rest) = some 1 := rfl

theorem closingLength?_plain (notQuote : c ≠ '"') (notEscape : c ≠ '\\') :
    closingLength? (c :: rest) = (closingLength? rest).map (· + 1) := by
  rw [closingLength?] <;> simp_all

theorem closingLength?_escaped (notFeed : c ≠ '\n') :
    closingLength? ('\\' :: c :: rest) = (closingLength? rest).map (· + 2) :=
  if_neg (by simpa using notFeed)

/-- Looking for the quote that closes passes over what may stand between quotes. -/
theorem IsBody.closingLength?_append (proper : IsBody body) (rest : List Char) :
    closingLength? (body ++ rest) = (closingLength? rest).map (· + body.length) := by
  induction proper with
  | nil => simp
  | plain notQuote notEscape _ ih =>
      rw [List.cons_append, closingLength?_plain notQuote notEscape, ih, Option.map_map]
      rfl
  | escaped notFeed _ ih =>
      rw [List.cons_append, List.cons_append, closingLength?_escaped notFeed, ih, Option.map_map]
      rfl

theorem IsBody.closingLength?_quote (proper : IsBody body) (rest : List Char) :
    closingLength? (body ++ '"' :: rest) = some (body.length + 1) := by
  rw [proper.closingLength?_append]
  simp [Nat.add_comm]

/-- The quote that closes stands behind a text that may stand between quotes. -/
theorem of_closingLength?_eq_some (closed : closingLength? text = some size) :
    ∃ body rest, IsBody body ∧ text = body ++ '"' :: rest ∧ size = body.length + 1 := by
  fun_induction closingLength? text generalizing size with
  | case1 => cases closed
  | case2 rest =>
      cases closed
      exact ⟨[], rest, .nil, rfl, rfl⟩
  | case3 c rest feed => cases closed
  | case4 c rest notFeed ih =>
      obtain ⟨inner, later, rfl⟩ := Option.map_eq_some_iff.mp closed
      obtain ⟨body, more, proper, rfl, rfl⟩ := ih later
      exact ⟨'\\' :: c :: body, more, .escaped (by simpa using notFeed) proper, rfl, rfl⟩
  | case5 => cases closed
  | case6 c rest notQuote notEscape notLast ih =>
      obtain ⟨inner, later, rfl⟩ := Option.map_eq_some_iff.mp closed
      obtain ⟨body, more, proper, rfl, rfl⟩ := ih later
      have plain : c ≠ '\\' := by
        rintro rfl
        cases body <;> exact notEscape _ _ rfl rfl
      exact ⟨c :: body, more, .plain notQuote plain proper, rfl, rfl⟩

/-- Where no quote closes, the text may stand between quotes, or it ends within an escape. -/
theorem of_closingLength?_eq_none (feedless : '\n' ∉ text) (unclosed : closingLength? text = none) :
    IsBody text ∨ ∃ body, IsBody body ∧ text = body ++ ['\\'] := by
  fun_induction closingLength? text with
  | case1 => exact .inl .nil
  | case2 rest => cases unclosed
  | case3 c rest feed => simp_all
  | case4 c rest notFeed ih =>
      have plain : c ≠ '\n' := by simpa using notFeed
      rcases ih (by simp_all) (by simpa using unclosed) with proper | ⟨body, proper, rfl⟩
      · exact .inl (.escaped plain proper)
      · exact .inr ⟨'\\' :: c :: body, .escaped plain proper, rfl⟩
  | case5 => exact .inr ⟨[], .nil, rfl⟩
  | case6 c rest notQuote notEscape notLast ih =>
      have plain : c ≠ '\\' := by
        rintro rfl
        cases rest with
        | nil => exact notLast rfl rfl
        | cons d more => exact notEscape d more rfl rfl
      rcases ih (by simp_all) (by simpa using unclosed) with proper | ⟨body, proper, rfl⟩
      · exact .inl (.plain notQuote plain proper)
      · exact .inr ⟨c :: body, .plain notQuote plain proper, rfl⟩

/-! ## Keys -/

/-- A word ends in front of this text, which is empty or starts with a blank. -/
def EndsWord (rest : List Char) : Prop :=
  ∀ c ∈ rest.head?, isBlank c = true

/-- No key with a quoted text stands at the front: on the first word there is no equals sign with
a quote that closes. -/
def Keyless (text : List Char) : Prop :=
  ∀ front rest, (∀ c ∈ front, isBlank c = false) → text = front ++ '=' :: '"' :: rest →
    closingLength? rest = none

/-- An equals sign with a quote that is on a word lies in the text before the end of the word. -/
theorem exists_of_sign_on_word {more : List Char} (ends : EndsWord rest)
    (solid : ∀ c ∈ front, isBlank c = false)
    (written : tail ++ rest = front ++ '=' :: '"' :: more) :
    ∃ inner, tail = front ++ '=' :: '"' :: inner ∧ more = inner ++ rest := by
  have sign : rest.head? ≠ some '=' := fun first => by cases ends _ first
  have quote : rest.head? ≠ some '"' := fun first => by cases ends _ first
  rcases List.append_eq_append_iff.mp written with ⟨gap, rfl, behind⟩ | ⟨inner, rfl, within⟩
  · cases gap with
    | nil => exact (sign (by rw [behind]; rfl)).elim
    | cons d gap =>
        have blank : isBlank d = true := ends d (by rw [behind]; rfl)
        rw [solid d (by simp)] at blank
        cases blank
  · match inner with
    | [] =>
        have whole : '=' :: '"' :: more = rest := within
        exact (sign (by rw [← whole]; rfl)).elim
    | [d] =>
        have follows : '"' :: more = rest := (List.cons.inj within).2
        exact (quote (by rw [← follows]; rfl)).elim
    | d :: e :: inner =>
        cases within
        exact ⟨inner, rfl, rfl⟩

theorem keyless_nil : Keyless [] := by
  intro front rest _ written
  simp at written

theorem keyless_blank (blank : isBlank c = true) : Keyless (c :: rest) := by
  intro front more solid written
  cases front with
  | nil =>
      cases written
      cases blank
  | cons d front =>
      cases written
      rw [solid c (by simp)] at blank
      cases blank

theorem keyless_cons (solid : isBlank c = false)
    (other : ∀ more, c = '=' → rest = '"' :: more → False) :
    Keyless (c :: rest) ↔ Keyless rest := by
  constructor
  · intro keyless front more solidFront written
    apply keyless (c :: front) more
    · simpa [solid] using solidFront
    · rw [written, List.cons_append]
  · intro keyless front more solidFront written
    cases front with
    | nil =>
        obtain ⟨sign, follows⟩ := List.cons.inj written
        exact (other more sign follows).elim
    | cons d front =>
        obtain ⟨rfl, follows⟩ := List.cons.inj written
        exact keyless front more (fun e member => solidFront e (by simp [member])) follows

theorem keyless_quote : Keyless ('"' :: rest) ↔ Keyless rest :=
  keyless_cons rfl fun _ other _ => by cases other

theorem keyless_sign :
    Keyless ('=' :: '"' :: rest) ↔ Keyless rest ∧ closingLength? rest = none := by
  constructor
  · intro keyless
    refine ⟨keyless_quote.mp ?_, keyless [] rest (by simp) rfl⟩
    intro front more solidFront written
    exact keyless ('=' :: front) more (by simpa using ⟨rfl, solidFront⟩) (by rw [written]; rfl)
  · rintro ⟨keyless, unclosed⟩ front more solidFront written
    cases front with
    | nil =>
        cases written
        exact unclosed
    | cons d front =>
        obtain ⟨rfl, follows⟩ := List.cons.inj written
        exact keyless_quote.mpr keyless front more (fun e member => solidFront e (by simp [member]))
          follows

theorem keyedLength?_eq_none_iff : keyedLength? text = none ↔ Keyless text := by
  fun_induction keyedLength? text with
  | case1 => simp [keyless_nil]
  | case2 rest length found ih =>
      rw [found, keyless_quote] at ih
      rw [keyless_sign, ← ih]
      simp
  | case3 rest missing ih =>
      rw [missing, keyless_quote] at ih
      rw [keyless_sign, ← ih]
      simp
  | case4 c rest other blank => simp [keyless_blank blank]
  | case5 c rest other notBlank ih =>
      have solid : isBlank c = false := by simpa using notBlank
      rw [keyless_cons solid other, ← ih]
      simp

theorem keyedLength?_sign (rest : List Char) :
    keyedLength? ('=' :: '"' :: rest) =
      match keyedLength? ('"' :: rest) with
      | some length => some (length + 1)
      | none => (closingLength? rest).map (· + 2) := rfl

theorem keyedLength?_cons (solid : isBlank c = false) (found : keyedLength? rest = some size) :
    keyedLength? (c :: rest) = some (size + 1) := by
  rw [keyedLength?.eq_def]
  split
  · rename_i none
    cases none
  · rename_i more written
    obtain ⟨-, rfl⟩ := List.cons.inj written
    rw [found]
  · rename_i written
    obtain ⟨rfl, rfl⟩ := List.cons.inj written
    simp [solid, found]

/-- The last place of a word where a quote closes decides. -/
theorem keyedLength?_append (solid : ∀ c ∈ front, isBlank c = false)
    (closed : closingLength? rest = some size) (last : Keyless rest) :
    keyedLength? (front ++ '=' :: '"' :: rest) = some (front.length + 2 + size) := by
  induction front with
  | nil =>
      have none : keyedLength? ('"' :: rest) = none :=
        keyedLength?_eq_none_iff.2 (keyless_quote.2 last)
      rw [List.nil_append, keyedLength?_sign]
      simp only [none, closed, Option.map_some, List.length_nil]
      congr 1
      omega
  | cons c front ih =>
      have inner := ih fun d member => solid d (by simp [member])
      rw [List.cons_append, keyedLength?_cons (solid c (by simp)) inner, List.length_cons]
      congr 1
      omega

/-- A length is that of the last place of the word where a quote closes. -/
theorem of_keyedLength?_eq_some (found : keyedLength? text = some size) :
    ∃ front body rest, (∀ c ∈ front, isBlank c = false) ∧ IsBody body ∧
      text = front ++ '=' :: '"' :: (body ++ '"' :: rest) ∧ Keyless (body ++ '"' :: rest) ∧
      size = front.length + body.length + 3 := by
  fun_induction keyedLength? text generalizing size with
  | case1 => cases found
  | case2 more length later ih =>
      cases found
      obtain ⟨front, body, rest, solid, proper, written, last, rfl⟩ := ih later
      refine ⟨'=' :: front, body, rest, by simpa using ⟨rfl, solid⟩, proper, ?_, last, ?_⟩
      · rw [written, List.cons_append]
      · rw [List.length_cons]
        omega
  | case3 more missing ih =>
      obtain ⟨inner, closed, rfl⟩ := Option.map_eq_some_iff.mp found
      obtain ⟨body, rest, proper, rfl, rfl⟩ := of_closingLength?_eq_some closed
      refine ⟨[], body, rest, by simp, proper, rfl, ?_, by simp⟩
      exact keyless_quote.mp (keyedLength?_eq_none_iff.mp missing)
  | case4 c more other blank => cases found
  | case5 c more other notBlank ih =>
      obtain ⟨inner, later, rfl⟩ := Option.map_eq_some_iff.mp found
      obtain ⟨front, body, rest, solid, proper, rfl, last, rfl⟩ := ih later
      have visible : isBlank c = false := by simpa using notBlank
      refine ⟨c :: front, body, rest, by simpa using ⟨visible, solid⟩, proper, rfl, last, ?_⟩
      rw [List.length_cons]
      omega

/-! ## Readings -/

/-- How a token that starts with a character is read in front of what follows it: it ends with
the quoted text of the last key on its word, or it is a quoted text without a key behind it, or
it is the whole word. -/
inductive Reading (c : Char) (tail rest : List Char) : Prop where
  | keyed (front body : List Char) (solid : ∀ d ∈ front, isBlank d = false)
      (proper : IsBody body) (written : tail = front ++ '=' :: '"' :: (body ++ ['"']))
      (last : Keyless (body ++ '"' :: rest))
  | quoted (body : List Char) (opened : c = '"') (proper : IsBody body)
      (written : tail = body ++ ['"']) (keyless : Keyless (tail ++ rest))
  | bare (solid : ∀ d ∈ tail, isBlank d = false) (ends : EndsWord rest)
      (keyless : Keyless (tail ++ rest))
      (unclosed : c = '"' → closingLength? (tail ++ rest) = none)

theorem quotedLength?_cons :
    quotedLength? (c :: text) =
      if c = '"' then (closingLength? text).map (· + 1) else none := by
  split
  · rename_i quote
    rw [quote, quotedLength?]
  · rename_i other
    rw [quotedLength?]
    simpa using other

theorem bareLength_append (solid : ∀ d ∈ tail, isBlank d = false)
    (ends : EndsWord rest) : bareLength (tail ++ rest) = tail.length := by
  have none : rest.takeWhile (fun d => !isBlank d) = [] := by
    cases rest with
    | nil => rfl
    | cons d more => simp [ends d (by simp)]
  rw [bareLength, List.takeWhile_append_of_pos (by simpa using solid), none, List.append_nil]

/-- A token has the length that its reading says. -/
theorem Reading.length_eq (reading : Reading c tail rest) :
    length c (tail ++ rest) = tail.length + 1 := by
  rw [length]
  cases reading with
  | keyed front body solid proper written last =>
      have found := keyedLength?_append solid (proper.closingLength?_quote rest) last
      rw [written]
      simp only [List.append_assoc, List.cons_append, List.nil_append, found, List.length_append,
        List.length_cons, List.length_nil]
      omega
  | quoted body opened proper written keyless =>
      rw [keyedLength?_eq_none_iff.mpr keyless, quotedLength?_cons, if_pos opened, written,
        List.append_assoc]
      simp [proper.closingLength?_quote]
  | bare solid ends keyless unclosed =>
      have unquoted : quotedLength? (c :: (tail ++ rest)) = none := by
        rw [quotedLength?_cons]
        split
        · rename_i opened
          rw [unclosed opened, Option.map_none]
        · rfl
      rw [keyedLength?_eq_none_iff.mpr keyless, unquoted, bareLength_append solid ends]
      rfl

/-- What follows a character is a token's tail, read in one of three ways, and a rest. -/
theorem exists_reading (c : Char) (text : List Char) :
    ∃ tail rest, text = tail ++ rest ∧ Reading c tail rest := by
  cases keyed : keyedLength? text with
  | some size =>
      obtain ⟨front, body, rest, solid, proper, rfl, last, -⟩ := of_keyedLength?_eq_some keyed
      exact ⟨_, rest, by simp, .keyed front body solid proper rfl last⟩
  | none =>
      have keyless := keyedLength?_eq_none_iff.mp keyed
      by_cases closed : c = '"' ∧ closingLength? text ≠ none
      · obtain ⟨opened, closed⟩ := closed
        obtain ⟨size, closed⟩ := Option.ne_none_iff_exists'.mp closed
        obtain ⟨body, rest, proper, rfl, -⟩ := of_closingLength?_eq_some closed
        refine ⟨body ++ ['"'], rest, by simp, .quoted body opened proper rfl ?_⟩
        simpa using keyless
      · have whole : text.takeWhile (fun d => !isBlank d) ++ text.dropWhile (fun d => !isBlank d) =
            text := List.takeWhile_append_dropWhile
        refine ⟨_, _, whole.symm, .bare ?_ ?_ ?_ ?_⟩
        · intro d member
          simpa using List.mem_takeWhile_imp member
        · intro d first
          have stopped := List.head?_dropWhile_not (fun d => !isBlank d) text
          rw [first] at stopped
          simpa using stopped
        · rwa [whole]
        · rw [whole]
          intro opened
          by_contra some
          exact closed ⟨opened, some⟩

/-! ## Lines -/

theorem split_blank (blank : isBlank c = true) :
    split (fuel + 1) (c :: rest) = split fuel rest := by
  rw [split, if_pos blank]

theorem split_token (solid : isBlank c = false) (reading : Reading c tail rest) :
    split (fuel + 1) (c :: (tail ++ rest)) = (c :: tail) :: split fuel rest := by
  rw [split, if_neg (by simp [solid]), reading.length_eq]
  simp

/-- What holds of the empty line, and is kept by a blank and by a token in front, holds of every
line. -/
theorem line_induction {motive : List Char → Prop} (nil : motive [])
    (blank : ∀ c rest, isBlank c = true → motive rest → motive (c :: rest))
    (token : ∀ c tail rest, isBlank c = false → Reading c tail rest → motive rest →
      motive (c :: (tail ++ rest))) (line : List Char) : motive line := by
  induction length : line.length using Nat.strong_induction_on generalizing line with
  | _ length ih =>
      cases line with
      | nil => exact nil
      | cons c text =>
          cases visible : isBlank c with
          | true => exact blank c text visible (ih text.length (by simp [← length]) text rfl)
          | false =>
              obtain ⟨tail, rest, rfl, reading⟩ := exists_reading c text
              refine token c tail rest visible reading (ih rest.length ?_ rest rfl)
              simp only [← length, List.length_cons, List.length_append]
              omega

/-- More fuel than a line has characters makes no difference. -/
theorem split_length_add (line : List Char) (more : Nat) :
    split (line.length + more) line = split line.length line := by
  induction line using line_induction generalizing more with
  | nil => cases more <;> rfl
  | blank c rest blank ih =>
      rw [List.length_cons, Nat.add_right_comm, split_blank blank, split_blank blank, ih]
  | token c tail rest solid reading ih =>
      rw [List.length_cons, Nat.add_right_comm, split_token solid reading,
        split_token solid reading, List.length_append, Nat.add_comm tail.length, Nat.add_assoc,
        ih, ih]

/-- The tokens of a line, as lists of characters. -/
def all (line : List Char) : List (List Char) :=
  split line.length line

theorem all_nil : all [] = [] := rfl

theorem all_blank (blank : isBlank c = true) : all (c :: rest) = all rest :=
  split_blank blank

theorem all_token (solid : isBlank c = false) (reading : Reading c tail rest) :
    all (c :: (tail ++ rest)) = (c :: tail) :: all rest := by
  rw [all, List.length_cons, split_token solid reading, List.length_append,
    Nat.add_comm tail.length, split_length_add, all]

/-- A token starts and ends with characters that are not blank. -/
theorem Reading.isTrimmed (solid : isBlank c = false) (reading : Reading c tail rest) :
    IsTrimmed (c :: tail) := by
  refine ⟨by simpa using solid, ?_⟩
  have quote : isBlank '"' = false := rfl
  cases reading with
  | keyed front body solidFront proper written last =>
      rw [written]
      simp [List.getLast?_cons, List.getLast?_append, quote]
  | quoted body opened proper written keyless =>
      rw [written]
      simp [List.getLast?_cons, List.getLast?_append, quote]
  | bare solidTail ends keyless unclosed =>
      intro d last
      rcases List.mem_cons.mp (List.mem_of_getLast? last) with rfl | member
      · exact solid
      · exact solidTail d member

theorem isTrimmed_of_mem_all {line token : List Char} (member : token ∈ all line) :
    token ≠ [] ∧ IsTrimmed token := by
  induction line using line_induction with
  | nil => cases member
  | blank c rest blank ih =>
      rw [all_blank blank] at member
      exact ih member
  | token c tail rest solid reading ih =>
      rw [all_token solid reading] at member
      rcases List.mem_cons.mp member with rfl | later
      · exact ⟨List.cons_ne_nil c tail, reading.isTrimmed solid⟩
      · exact ih later

/-- A token has its characters from the line. -/
theorem mem_line_of_mem_all {line token : List Char} (member : token ∈ all line)
    (inToken : c ∈ token) : c ∈ line := by
  induction line using line_induction with
  | nil => cases member
  | blank d rest blank ih =>
      rw [all_blank blank] at member
      exact List.mem_cons_of_mem d (ih member)
  | token d tail rest solid reading ih =>
      rw [all_token solid reading] at member
      rcases List.mem_cons.mp member with rfl | later
      · rw [← List.cons_append]
        exact List.mem_append_left rest inToken
      · exact List.mem_cons_of_mem d (List.mem_append_right tail (ih later))

/-- A line without tokens is blank. -/
theorem allBlank_of_all_eq_nil {line : List Char} (none : all line = []) :
    ∀ c ∈ line, isBlank c = true := by
  induction line using line_induction with
  | nil => simp
  | blank c rest blank ih =>
      rw [all_blank blank] at none
      simpa [blank] using ih none
  | token c tail rest solid reading ih =>
      rw [all_token solid reading] at none
      cases none

/-- A line that starts and ends with characters that are not blank is its only token. -/
theorem eq_of_all_eq_singleton {line token : List Char} (trimmed : IsTrimmed line)
    (only : all line = [token]) : line = token := by
  cases line with
  | nil => cases only
  | cons c text =>
      have solid : isBlank c = false := trimmed.first c rfl
      obtain ⟨tail, rest, rfl, reading⟩ := exists_reading c text
      rw [all_token solid reading] at only
      obtain ⟨rfl, none⟩ := List.cons.inj only
      cases last : rest.getLast? with
      | none => simp [List.getLast?_eq_none_iff.mp last]
      | some d =>
          have blank := allBlank_of_all_eq_nil none d (List.mem_of_getLast? last)
          have ends := trimmed.last d (by simp [List.getLast?_cons, List.getLast?_append, last])
          rw [ends] at blank
          cases blank

end Token

/-- The tokens of a line are told apart character by character. -/
theorem tokens_eq (line : String) : tokens line = (Token.all line.toList).map String.ofList := by
  rw [tokens, Token.all, String.length_toList]

theorem all_toList (line : String) : Token.all line.toList = (tokens line).map String.toList := by
  rw [tokens_eq, List.map_map]
  simp [Function.comp_def]

/-- A character of joined pieces is a space or from one of them. -/
theorem of_mem_intercalate {pieces : List (List Char)} {c : Char}
    (member : c ∈ [' '].intercalate pieces) : c = ' ' ∨ ∃ piece ∈ pieces, c ∈ piece := by
  induction pieces with
  | nil => cases member
  | cons piece pieces ih =>
      cases pieces with
      | nil => exact .inr ⟨piece, by simp, by simpa using member⟩
      | cons next pieces =>
          rw [List.intercalate_cons_cons, List.append_assoc, List.mem_append, List.mem_append,
            List.mem_singleton] at member
          rcases member with inPiece | space | later
          · exact .inr ⟨piece, by simp, inPiece⟩
          · exact .inl space
          · rcases ih later with space | ⟨other, among, inOther⟩
            · exact .inl space
            · exact .inr ⟨other, List.mem_cons_of_mem piece among, inOther⟩

/-- The first token of a line is the name of its command. -/
theorem Command.ofLine?_eq_some_iff {line : String} {command : Command} :
    Command.ofLine? line = some command ↔ tokens line = command.name :: command.args := by
  rw [Command.ofLine?]
  cases command
  split
  · rename_i none
    simp [none]
  · rename_i name args some
    simp [some]

/-- The tokens of a line that gives a command are its name and its arguments. -/
theorem Command.all_eq {line : String} {command : Command}
    (named : Command.ofLine? line = some command) :
    Token.all line.toList = command.name.toList :: command.args.map String.toList := by
  rw [all_toList, Command.ofLine?_eq_some_iff.mp named, List.map_cons]

/-- A comment is a command if its first line, trimmed, starts with the trigger and is not just one
character. -/
theorem commandLine?_eq_some_iff {trigger body line : String} :
    commandLine? trigger body = some line ↔
      2 ≤ (trim (firstLine body.toList)).length ∧
        trim (firstLine body.toList) = trigger.toList ++ line.toList := by
  rw [commandLine?]
  simp only [Bool.and_eq_true, decide_eq_true_eq, List.isPrefixOf_iff_prefix,
    Option.ite_none_right_eq_some, Option.some.injEq]
  constructor
  · rintro ⟨⟨long, rest, whole⟩, rfl⟩
    refine ⟨long, ?_⟩
    rw [String.toList_ofList, ← whole, ← String.length_toList, List.drop_left]
  · rintro ⟨long, whole⟩
    refine ⟨⟨long, line.toList, whole.symm⟩, ?_⟩
    rw [whole, ← String.length_toList, List.drop_left, String.ofList_toList]

/-- The first line of a comment has no line break. -/
theorem not_isLineBreak_of_commandLine? {trigger body line : String} {c : Char}
    (given : commandLine? trigger body = some line) (member : c ∈ trigger.toList ++ line.toList) :
    isLineBreak c = false := by
  rw [← (commandLine?_eq_some_iff.mp given).2] at member
  simpa using List.mem_takeWhile_imp (mem_of_mem_trim member)

end SlashBot

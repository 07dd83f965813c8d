import Mathlib.Data.List.Basic
import SlashBot.Proofs.Token

/-!
# The pattern of a token

Tokens can also be said by a pattern that is tried in all possible ways: as many characters as
possible are taken first, and are given back one by one where the rest does not match. A pattern
is given here as all that it can leave of a text, in the order in which the ways are tried. The
first way of the pattern for tokens ends where the token does, so nothing ever has to be tried.
-/

namespace SlashBot

open Text

/-- A pattern for the front of a text. -/
inductive Pattern where
  | one (test : Char → Bool)
  | both (first second : Pattern)
  /-- The first pattern is tried before the second one. -/
  | either (first second : Pattern)
  /-- One more time is tried before no more. -/
  | many (inner : Pattern)

namespace Pattern

variable {test : Char → Bool} {second inner : Pattern} {c : Char} {text rest : List Char}
  {fuel : Nat}

/-- What is left of a text by steps that are taken as often as possible, and then once less. A
step must take something. -/
def again (step : List Char → List (List Char)) :
    (fuel : Nat) → (text : List Char) → List (List Char)
  | 0, text => [text]
  | fuel + 1, text =>
      ((step text).filter (·.length < text.length)).flatMap (again step fuel) ++ [text]

/-- What is left of a text by each way in which a pattern matches its front, in the order in which
the ways are tried. -/
def rests : (pattern : Pattern) → (text : List Char) → List (List Char)
  | one _, [] => []
  | one test, c :: rest => if test c then [rest] else []
  | both first second, text => (first.rests text).flatMap second.rests
  | either first second, text => first.rests text ++ second.rests text
  | many inner, text => again inner.rests text.length text

/-- The matches of a pattern in a text, from left to right, with fuel for each character. Where
the pattern does not match, or takes nothing, a character is passed over. -/
def matchesIn (pattern : Pattern) : (fuel : Nat) → (text : List Char) → List (List Char)
  | 0, _ => []
  | _, [] => []
  | fuel + 1, c :: text =>
      match (pattern.rests (c :: text)).head? with
      | some rest =>
          let size := text.length + 1 - rest.length
          if size = 0 then matchesIn pattern fuel text
          else (c :: text).take size :: matchesIn pattern fuel rest
      | none => matchesIn pattern fuel text

/-! ## Equations for the constructors -/

@[simp] theorem rests_one_nil : (one test).rests [] = [] := rfl

@[simp] theorem rests_one_cons :
    (one test).rests (c :: rest) = if test c then [rest] else [] := rfl

theorem rests_both (first : Pattern) (text : List Char) :
    (both first second).rests text = (first.rests text).flatMap second.rests := rfl

theorem rests_many_eq_again (text : List Char) :
    (many inner).rests text = again inner.rests text.length text := rfl

/-! ## Repetition -/

theorem again_succ {step : List Char → List (List Char)} (enough : text.length ≤ fuel) :
    again step (fuel + 1) text = again step fuel text := by
  induction fuel generalizing text with
  | zero =>
      cases List.eq_nil_of_length_eq_zero (Nat.le_zero.mp enough)
      simp [again]
  | succ fuel ih =>
      rw [again, again]
      congr 1
      apply List.flatMap_congr
      intro rest member
      have shorter : rest.length < text.length := by simpa using (List.mem_filter.mp member).2
      exact ih (by omega)

theorem again_eq {step : List Char → List (List Char)} (enough : text.length ≤ fuel) :
    again step fuel text = again step text.length text := by
  induction fuel, enough using Nat.le_induction with
  | base => rfl
  | succ fuel enough ih => rw [again_succ enough, ih]

/-- One step of a repetition, and then the repetition again. -/
theorem rests_many (text : List Char) :
    (many inner).rests text =
      ((inner.rests text).filter (·.length < text.length)).flatMap (many inner).rests ++ [text] := by
  cases text with
  | nil => simp [rests_many_eq_again, again]
  | cons c text =>
      rw [rests_many_eq_again, List.length_cons, again]
      congr 1
      apply List.flatMap_congr
      intro rest member
      have shorter : rest.length < text.length + 1 := by simpa using (List.mem_filter.mp member).2
      exact again_eq (by omega)

theorem rests_many_one_nil : (many (one test)).rests [] = [[]] := rfl

theorem rests_many_one (accepted : test c = true) :
    (many (one test)).rests (c :: rest) = (many (one test)).rests rest ++ [c :: rest] := by
  rw [rests_many]
  simp [accepted]

theorem rests_many_one_refused (refused : test c = false) :
    (many (one test)).rests (c :: rest) = [c :: rest] := by
  rw [rests_many]
  simp [refused]

/-- Ones can only be taken while they match. -/
theorem length_le_of_mem_rests_many_one (member : rest ∈ (many (one test)).rests text) :
    rest.length ≤ text.length := by
  induction text with
  | nil => simp_all [rests_many_one_nil]
  | cons c text ih =>
      cases accepted : test c with
      | true =>
          rw [rests_many_one accepted, List.mem_append, List.mem_singleton] at member
          rcases member with later | rfl
          · exact Nat.le_succ_of_le (ih later)
          · exact Nat.le_refl _
      | false =>
          rw [rests_many_one_refused accepted, List.mem_singleton] at member
          exact member ▸ Nat.le_refl _

/-! ## The pattern for tokens -/

/-- A single character. -/
def just (c : Char) : Pattern :=
  one (· == c)

/-- Characters that are not blank. -/
def solid : Pattern :=
  many (one fun c => !isBlank c)

/-- A word: characters that are not blank, at least one. -/
def word : Pattern :=
  both (one fun c => !isBlank c) solid

/-- Characters that are neither a quote nor a backslash. -/
def plain : Pattern :=
  many (one fun c => c != '"' && c != '\\')

/-- A backslash with the character behind it, and then plain characters. -/
def escaped : Pattern :=
  both (just '\\') (both (one (· != '\n')) plain)

/-- Escaped characters and the quote that closes. -/
def finishing : Pattern :=
  both (many escaped) (just '"')

/-- What may stand between quotes, and the quote that closes. -/
def closing : Pattern :=
  both plain finishing

/-- A text between quotes. -/
def quotedText : Pattern :=
  both (just '"') closing

/-- An equals sign with a text between quotes. -/
def setting : Pattern :=
  both (just '=') quotedText

/-- A token: a word with an equals sign and a quoted text, or a quoted text, or a word. -/
def token : Pattern :=
  either (both word setting) (either quotedText word)

theorem rests_both_just (c : Char) (text : List Char) :
    (both (just c) second).rests (c :: text) = second.rests text := by
  simp [just, rests_both]

theorem rests_both_just_ne {d : Char} (other : c ≠ d) :
    (both (just d) second).rests (c :: text) = [] := by
  simp [just, rests_both, other]

/-! ## Quotes that close -/

theorem rests_finishing_ne (notEscape : c ≠ '\\') :
    finishing.rests (c :: text) = (just '"').rests (c :: text) := by
  rw [finishing, rests_both, rests_many, escaped, rests_both_just_ne notEscape]
  simp

/-- Behind an escaped character it goes on as at the start. -/
theorem rests_finishing_escaped (notFeed : c ≠ '\n') :
    finishing.rests ('\\' :: c :: text) = closing.rests text := by
  have once : escaped.rests ('\\' :: c :: text) = plain.rests text := by
    rw [escaped, rests_both_just, rests_both]
    simp [notFeed]
  have shorter : (plain.rests text).filter (·.length < ('\\' :: c :: text).length) =
      plain.rests text := by
    rw [List.filter_eq_self]
    intro rest member
    have bound := length_le_of_mem_rests_many_one member
    simp only [List.length_cons, decide_eq_true_eq]
    omega
  have unfinished : (just '"').rests ('\\' :: c :: text) = [] := rfl
  rw [finishing, rests_both, rests_many, once, shorter, List.flatMap_append, List.flatMap_assoc,
    List.flatMap_singleton, unfinished, List.append_nil]
  rfl

theorem rests_finishing_feed :
    finishing.rests ('\\' :: '\n' :: text) = [] := by
  rw [finishing, rests_both, rests_many, escaped, rests_both_just]
  simp [rests_both, just]

theorem rests_finishing_last : finishing.rests ['\\'] = [] := by
  rw [finishing, rests_both, rests_many, escaped, rests_both_just]
  simp [rests_both, just]

theorem rests_closing_plain (notQuote : c ≠ '"') (notEscape : c ≠ '\\') :
    closing.rests (c :: text) = closing.rests text := by
  rw [closing, rests_both, plain, rests_many_one (by simp [notQuote, notEscape]),
    List.flatMap_append, List.flatMap_singleton, rests_finishing_ne notEscape]
  simp [just, rests_both, notQuote]

theorem rests_closing_special (special : c = '"' ∨ c = '\\') :
    closing.rests (c :: text) = finishing.rests (c :: text) := by
  rw [closing, rests_both, plain, rests_many_one_refused (by rcases special with rfl | rfl <;> rfl),
    List.flatMap_singleton]

/-- There is one way at most to find the quote that closes. -/
theorem rests_closing (text : List Char) :
    closing.rests text = ((Token.closingLength? text).map (text.drop ·)).toList := by
  fun_induction Token.closingLength? text with
  | case1 => rfl
  | case2 rest =>
      rw [rests_closing_special (.inl rfl), rests_finishing_ne (by decide)]
      simp [just]
  | case3 c rest feed =>
      rw [rests_closing_special (.inr rfl), eq_of_beq feed, rests_finishing_feed]
      rfl
  | case4 c rest notFeed ih =>
      rw [rests_closing_special (.inr rfl), rests_finishing_escaped (by simpa using notFeed), ih,
        Option.map_map]
      rfl
  | case5 =>
      rw [rests_closing_special (.inr rfl), rests_finishing_last]
      rfl
  | case6 c rest notQuote notEscape notLast ih =>
      have plain : c ≠ '\\' := by
        rintro rfl
        cases rest with
        | nil => exact notLast rfl rfl
        | cons d more => exact notEscape d more rfl rfl
      rw [rests_closing_plain notQuote plain, ih, Option.map_map]
      rfl

/-! ## Words and keys -/

theorem head?_rests_solid (text : List Char) :
    (solid.rests text).head? = some (text.drop (Token.bareLength text)) := by
  induction text with
  | nil => rfl
  | cons c text ih =>
      rw [Token.bareLength] at ih ⊢
      cases blank : isBlank c with
      | true =>
          rw [solid, rests_many_one_refused (by simp [blank])]
          simp [blank]
      | false =>
          rw [solid, rests_many_one (by simp [blank]), ← solid, List.head?_append, ih]
          simp [blank]

/-- The rest of a word is tried with one more character before it is tried without it. -/
theorem rests_solid_setting_cons (visible : isBlank c = false) :
    (both solid setting).rests (c :: text) =
      (both solid setting).rests text ++ setting.rests (c :: text) := by
  rw [rests_both, solid, rests_many_one (by simp [visible]), List.flatMap_append,
    List.flatMap_singleton, rests_both]

theorem rests_setting_quote (text : List Char) : setting.rests ('=' :: '"' :: text) =
    ((Token.closingLength? text).map (text.drop ·)).toList := by
  rw [setting, rests_both_just, quotedText, rests_both_just, rests_closing]

theorem rests_setting_other (other : ∀ more, c = '=' → text = '"' :: more → False) :
    setting.rests (c :: text) = [] := by
  by_cases sign : c = '='
  · rw [sign, setting, rests_both_just, quotedText]
    cases text with
    | nil => rfl
    | cons d more =>
        apply rests_both_just_ne
        rintro rfl
        exact other more sign rfl
  · rw [setting, rests_both_just_ne sign]

/-- A word goes on with an equals sign and a quoted text at the last possible place. -/
theorem head?_rests_solid_setting (text : List Char) :
    ((both solid setting).rests text).head? = (Token.keyedLength? text).map (text.drop ·) := by
  fun_induction Token.keyedLength? text with
  | case1 => rfl
  | case2 rest length found ih =>
      rw [rests_solid_setting_cons rfl, List.head?_append, ih, found]
      rfl
  | case3 rest missing ih =>
      rw [rests_solid_setting_cons rfl, List.head?_append, ih, missing, rests_setting_quote]
      cases Token.closingLength? rest <;> rfl
  | case4 c rest other blank =>
      have notSign : c ≠ '=' := by
        rintro rfl
        cases blank
      rw [rests_both, solid, rests_many_one_refused (by simp [blank]), List.flatMap_singleton,
        setting, rests_both_just_ne notSign]
      rfl
  | case5 c rest other notBlank ih =>
      rw [rests_solid_setting_cons (by simpa using notBlank), rests_setting_other other,
        List.append_nil, ih, Option.map_map]
      rfl

/-! ## Tokens -/

theorem rests_both_word (solidFirst : isBlank c = false) :
    (both word second).rests (c :: text) = (both solid second).rests text := by
  simp [word, rests_both, solidFirst]

theorem rests_word (solidFirst : isBlank c = false) :
    word.rests (c :: text) = solid.rests text := by
  simp [word, rests_both, solidFirst]

/-- The first way to match a token ends where the token does. -/
theorem head?_rests_token (solidFirst : isBlank c = false) (text : List Char) :
    (token.rests (c :: text)).head? = some (text.drop (Token.length c text - 1)) := by
  have whole : token.rests (c :: text) = (both solid setting).rests text ++
      (quotedText.rests (c :: text) ++ solid.rests text) := by
    rw [← rests_both_word solidFirst, ← rests_word solidFirst]
    rfl
  rw [whole, List.head?_append, List.head?_append, head?_rests_solid_setting, head?_rests_solid,
    Token.length]
  cases Token.keyedLength? text with
  | some size => rfl
  | none =>
      rw [Token.quotedLength?_cons]
      by_cases opened : c = '"'
      · rw [opened, quotedText, rests_both_just, rests_closing]
        cases Token.closingLength? text <;> rfl
      · rw [quotedText, rests_both_just_ne opened]
        simp [opened]

theorem rests_token_blank (blank : isBlank c = true) : token.rests (c :: text) = [] := by
  have notQuote : c ≠ '"' := by
    rintro rfl
    cases blank
  have quoted : quotedText.rests (c :: text) = [] := rests_both_just_ne notQuote
  have words (second : Pattern) : (both word second).rests (c :: text) = [] := by
    simp [word, rests_both, blank]
  have alone : word.rests (c :: text) = [] := by
    simp [word, rests_both, blank]
  have whole : token.rests (c :: text) = (both word setting).rests (c :: text) ++
      (quotedText.rests (c :: text) ++ word.rests (c :: text)) := rfl
  rw [whole, words, quoted, alone]
  rfl

/-- The matches of the pattern are the tokens of the line. -/
theorem matchesIn_token (line : List Char) (more : Nat) :
    matchesIn token (line.length + more) line = Token.all line := by
  induction line using Token.line_induction generalizing more with
  | nil => cases more <;> rfl
  | blank c rest blank ih =>
      rw [List.length_cons, Nat.add_right_comm, matchesIn, rests_token_blank blank,
        Token.all_blank blank]
      exact ih more
  | token c tail rest solid reading ih =>
      have ends : (token.rests (c :: (tail ++ rest))).head? = some rest := by
        rw [head?_rests_token solid, reading.length_eq, Nat.add_sub_cancel, List.drop_left]
      have size : (tail ++ rest).length + 1 - rest.length = tail.length + 1 := by
        rw [List.length_append]
        omega
      rw [List.length_cons, Nat.add_right_comm, matchesIn, ends, Token.all_token solid reading]
      simp only [size, Nat.add_one_ne_zero, if_false, List.take_succ_cons, List.take_left]
      rw [List.length_append, Nat.add_comm tail.length, Nat.add_assoc, ih]

/-- The word is given back down to the last equals sign with a quote that closes. -/
example : matchesIn token 13 "a=\"b=\"c d\" e".toList = ["a=\"b=\"c d\"".toList, ['e']] := by
  decide

end Pattern

end SlashBot

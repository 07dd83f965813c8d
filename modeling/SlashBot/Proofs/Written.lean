import Mathlib.Data.List.Basic
import SlashBot.Proofs.Canonical

/-!
# Written tokens

A line can be written token by token: bare words, quoted texts, and words with a quoted text
after an equals sign, with a space between any two. The line is read back as these tokens, with
one exception. Where a quoted text has no blank and ends with an equals sign, its closing quote
looks like one that opens, and it does open a quoted text if a later token has a quote.
-/

namespace SlashBot

open Text

namespace Token

variable {rest : List Char}

/-- A word is not empty and has neither blanks nor quotes. -/
structure Word where
  chars : List Char
  filled : chars ≠ []
  solid : ∀ c ∈ chars, isBlank c = false
  quoteless : '"' ∉ chars

theorem Word.exists_cons (word : Word) :
    ∃ c tail, word.chars = c :: tail ∧ isBlank c = false ∧ ∀ d ∈ tail, isBlank d = false := by
  obtain ⟨c, tail, written⟩ := List.exists_cons_of_ne_nil word.filled
  have solid := word.solid
  rw [written, List.forall_mem_cons] at solid
  exact ⟨c, tail, written, solid⟩

/-- A word may stand between quotes, unless it ends within an escape. -/
theorem Word.isBody_or (word : Word) :
    IsBody word.chars ∨ ∃ body, IsBody body ∧ word.chars = body ++ ['\\'] := by
  apply of_closingLength?_eq_none
  · intro feed
    cases word.solid _ feed
  · cases closed : closingLength? word.chars with
    | none => rfl
    | some size =>
        obtain ⟨body, rest, -, written, -⟩ := of_closingLength?_eq_some closed
        exact (word.quoteless (by simp [written])).elim

/-- A quote closes behind a word if it does behind the space that follows the word. -/
theorem closingLength?_word (word : Word) (ends : EndsWord rest)
    (feedless : rest.head? ≠ some '\n') :
    closingLength? (word.chars ++ rest) = none ↔ closingLength? rest = none := by
  rcases word.isBody_or with proper | ⟨body, proper, written⟩
  · exact proper.closingLength?_eq_none
  · rw [written, List.append_assoc, proper.closingLength?_eq_none]
    cases rest with
    | nil => exact Iff.rfl
    | cons d more =>
        have notFeed : d ≠ '\n' := fun feed => feedless (by rw [feed]; rfl)
        rw [List.singleton_append, closingLength?_escaped notFeed, Option.map_eq_none_iff,
          closingLength?_blank (ends d rfl)]

/-- A token as it is written. -/
inductive Written where
  | bare (word : Word)
  | quoted (body : List Char) (proper : IsBody body)
  | keyed (key : Word) (body : List Char) (proper : IsBody body)

namespace Written

/-- The characters of a written token. -/
def chars : Written → List Char
  | bare word => word.chars
  | quoted body _ => '"' :: (body ++ ['"'])
  | keyed key body _ => key.chars ++ '=' :: '"' :: (body ++ ['"'])

/-- The token as a text. -/
def text (token : Written) : String :=
  String.ofList token.chars

/-- The text between the quotes of a token. -/
def body? : Written → Option (List Char)
  | bare _ => none
  | quoted body _ | keyed _ body _ => some body

/-- The token has a quoted text. -/
def IsQuoted (token : Written) : Prop :=
  token.body?.isSome

/-- The closing quote looks like one that opens: the quoted text has no blank and ends with an
equals sign. -/
def IsAmbiguous (token : Written) : Prop :=
  ∃ front, (∀ c ∈ front, isBlank c = false) ∧ token.body? = some (front ++ ['='])

/-- The written tokens, each behind a space. -/
def spaced (tokens : List Written) : List Char :=
  tokens.flatMap fun token => ' ' :: token.chars

theorem spaced_cons (token : Written) (later : List Written) :
    spaced (token :: later) = ' ' :: (token.chars ++ spaced later) := rfl

theorem endsWord_spaced (tokens : List Written) : EndsWord (spaced tokens) := by
  intro c first
  cases tokens with
  | nil => cases first
  | cons token later =>
      cases first
      rfl

/-! ## Quotes in the tokens that follow -/

/-- No quote closes in the tokens that follow just if none of them is quoted. -/
theorem closingLength?_spaced (tokens : List Written) :
    closingLength? (spaced tokens) = none ↔ ∀ token ∈ tokens, ¬ token.IsQuoted := by
  induction tokens with
  | nil => simp [spaced]
  | cons token later ih =>
      rw [spaced_cons, closingLength?_blank rfl, List.forall_mem_cons, ← ih]
      cases token with
      | bare word =>
          have feedless : (spaced later).head? ≠ some '\n' := by
            cases later <;> simp [spaced]
          rw [chars, closingLength?_word word (endsWord_spaced later) feedless]
          simp [IsQuoted, body?]
      | quoted body proper => simp [chars, IsQuoted, body?]
      | keyed key body proper =>
          have closes : closingLength? ((keyed key body proper).chars ++ spaced later) ≠ none := by
            rw [chars]
            rcases key.isBody_or with plain | ⟨front, plain, written⟩
            · rw [List.append_assoc, Ne, plain.closingLength?_eq_none]
              simp [closingLength?_plain]
            · rw [written, List.append_assoc, List.append_assoc, Ne, plain.closingLength?_eq_none]
              simp [closingLength?_escaped]
          simp [closes, IsQuoted, body?]

/-! ## Reading a written token back -/

theorem of_quote_at_body {body inner : List Char} (proper : IsBody body)
    (written : body ++ ['"'] = '"' :: inner) : body = [] ∧ inner = [] := by
  cases proper with
  | nil => simpa using written.symm
  | plain notQuote notEscape _ =>
      cases written
      exact (notQuote rfl).elim
  | escaped notFeed _ => cases written

/-- Only the closing quote of a quoted text can stand behind an equals sign. -/
theorem of_sign_in_body {body front inner : List Char} (proper : IsBody body)
    (written : body ++ ['"'] = front ++ '=' :: '"' :: inner) :
    body = front ++ ['='] ∧ inner = [] := by
  induction proper generalizing front with
  | nil =>
      cases front with
      | nil => cases written
      | cons d front => simp at written
  | @plain c body notQuote notEscape proper ih =>
      match front with
      | [] =>
          simp only [List.cons_append, List.nil_append, List.cons.injEq] at written
          obtain ⟨rfl, behind⟩ := written
          obtain ⟨rfl, rfl⟩ := of_quote_at_body proper behind
          exact ⟨rfl, rfl⟩
      | d :: front =>
          simp only [List.cons_append, List.cons.injEq] at written
          obtain ⟨rfl, behind⟩ := written
          obtain ⟨rfl, rfl⟩ := ih behind
          exact ⟨rfl, rfl⟩
  | @escaped c body notFeed proper ih =>
      match front with
      | [] => cases written
      | [d] =>
          simp only [List.cons_append, List.nil_append, List.cons.injEq] at written
          obtain ⟨rfl, rfl, behind⟩ := written
          obtain ⟨rfl, rfl⟩ := of_quote_at_body proper behind
          exact ⟨rfl, rfl⟩
      | d :: e :: front =>
          simp only [List.cons_append, List.cons.injEq] at written
          obtain ⟨rfl, rfl, behind⟩ := written
          obtain ⟨rfl, rfl⟩ := ih behind
          exact ⟨rfl, rfl⟩

/-- Behind a quoted text there is no later key, unless its closing quote opens one. -/
theorem keyless_body {body : List Char} (proper : IsBody body) (ends : EndsWord rest)
    (closed : ∀ front, (∀ c ∈ front, isBlank c = false) → body = front ++ ['='] →
      closingLength? rest = none) : Keyless (body ++ '"' :: rest) := by
  intro front more solid written
  have within : (body ++ ['"']) ++ rest = front ++ '=' :: '"' :: more := by simpa using written
  obtain ⟨inner, sign, rfl⟩ := exists_of_sign_on_word ends solid within
  obtain ⟨body, rfl⟩ := of_sign_in_body proper sign
  exact closed front solid body

/-- A written token is read back, unless its closing quote opens another quoted text. -/
theorem all_append (token : Written) (ends : EndsWord rest)
    (closed : token.IsAmbiguous → closingLength? rest = none) :
    all (token.chars ++ rest) = token.chars :: all rest := by
  have keyless {body : List Char} (proper : IsBody body) (held : token.body? = some body) :
      Keyless (body ++ '"' :: rest) := by
    refine keyless_body proper ends ?_
    intro front solid ending
    exact closed ⟨front, solid, by rw [held, ending]⟩
  cases token with
  | bare word =>
      obtain ⟨c, tail, written, visible, solid⟩ := word.exists_cons
      have quoteless := word.quoteless
      rw [written] at quoteless
      rw [chars, written]
      refine all_token visible (.bare solid ends ?_ ?_)
      · intro front more solidFront sign
        obtain ⟨inner, rfl, -⟩ := exists_of_sign_on_word ends solidFront sign
        simp at quoteless
      · rintro rfl
        simp at quoteless
  | quoted body proper =>
      have reading : Reading '"' (body ++ ['"']) rest :=
        .quoted body rfl proper rfl (by simpa using keyless proper rfl)
      exact all_token rfl reading
  | keyed key body proper =>
      obtain ⟨c, front, written, visible, solid⟩ := key.exists_cons
      have reading : Reading c (front ++ '=' :: '"' :: (body ++ ['"'])) rest :=
        .keyed front body solid proper rfl (keyless proper rfl)
      rw [chars, written]
      exact all_token visible reading

/-- An ambiguous token is one word up to the equals sign in front of its closing quote. -/
theorem IsAmbiguous.chars_eq {token : Written} (ambiguous : token.IsAmbiguous) :
    ∃ c front, token.chars = c :: (front ++ ['=', '"']) ∧ isBlank c = false ∧
      ∀ d ∈ front, isBlank d = false := by
  obtain ⟨inner, solid, body⟩ := ambiguous
  cases token with
  | bare word => cases body
  | quoted body proper =>
      cases body
      exact ⟨'"', inner, by simp [chars], rfl, solid⟩
  | keyed key body proper =>
      cases body
      obtain ⟨c, front, written, visible, solidKey⟩ := key.exists_cons
      refine ⟨c, front ++ '=' :: '"' :: inner, by simp [chars, written], visible, ?_⟩
      rw [List.forall_mem_append, List.forall_mem_cons, List.forall_mem_cons]
      exact ⟨solidKey, rfl, rfl, solid⟩

/-- Where the closing quote of an ambiguous token opens another quoted text, the token that is read
is longer. -/
theorem all_append_of_isAmbiguous {token : Written} (ambiguous : token.IsAmbiguous)
    (ends : EndsWord rest) (closes : closingLength? rest ≠ none) :
    ∃ more later, more ≠ [] ∧ all (token.chars ++ rest) = (token.chars ++ more) :: later := by
  obtain ⟨c, front, written, visible, solid⟩ := ambiguous.chars_eq
  obtain ⟨size, closed⟩ := Option.ne_none_iff_exists'.mp closes
  obtain ⟨body, after, proper, rfl, -⟩ := of_closingLength?_eq_some closed
  have keyless : Keyless (body ++ '"' :: after) := by
    cases rest : body ++ '"' :: after with
    | nil => exact keyless_nil
    | cons d more =>
        rw [rest] at ends
        exact keyless_blank (ends d rfl)
  have reading : Reading c (front ++ '=' :: '"' :: (body ++ ['"'])) after :=
    .keyed front body solid proper rfl keyless
  refine ⟨body ++ ['"'], all after, by simp, ?_⟩
  have read := all_token visible reading
  rw [written]
  simpa using read

/-- Written tokens are read back just if no ambiguous one stands before a quoted one. -/
theorem all_spaced_iff (tokens : List Written) :
    all (spaced tokens) = tokens.map chars ↔
      tokens.Pairwise fun token later => ¬ (token.IsAmbiguous ∧ later.IsQuoted) := by
  induction tokens with
  | nil => simp [spaced, all_nil]
  | cons token later ih =>
      have ends := endsWord_spaced later
      rw [spaced_cons, all_blank rfl, List.pairwise_cons, List.map_cons, ← ih]
      by_cases opens : token.IsAmbiguous ∧ closingLength? (spaced later) ≠ none
      · obtain ⟨ambiguous, closes⟩ := opens
        obtain ⟨more, rest, filled, read⟩ := all_append_of_isAmbiguous ambiguous ends closes
        have longer : (token.chars ++ more) :: rest ≠ token.chars :: later.map chars := by
          intro same
          exact filled (List.append_right_eq_self.mp (List.cons.inj same).1)
        rw [read]
        refine iff_of_false longer ?_
        rintro ⟨apart, -⟩
        apply closes
        rw [closingLength?_spaced]
        exact fun other member quoted => apart other member ⟨ambiguous, quoted⟩
      · have closed : token.IsAmbiguous → closingLength? (spaced later) = none := fun ambiguous =>
          not_not.mp fun closes => opens ⟨ambiguous, closes⟩
        have apart : ∀ other ∈ later, ¬ (token.IsAmbiguous ∧ other.IsQuoted) := by
          rintro other member ⟨ambiguous, quoted⟩
          exact (closingLength?_spaced later).mp (closed ambiguous) other member quoted
        rw [all_append token ends closed, List.cons.injEq]
        exact ⟨fun same => ⟨apart, same.2⟩, fun same => ⟨rfl, same.2⟩⟩

end Written

end Token

open Token

theorem tokens_intercalate_text_iff (written : List Written) :
    tokens (" ".intercalate (written.map Written.text)) = written.map Written.text ↔
      written.Pairwise fun token later => ¬ (token.IsAmbiguous ∧ later.IsQuoted) := by
  have line : (" ".intercalate (written.map Written.text)).toList =
      [' '].intercalate (written.map Written.chars) := by
    rw [String.toList_intercalate, List.map_map]
    simp [Function.comp_def, Written.text]
  have texts : written.map Written.text = (written.map Written.chars).map String.ofList := by
    rw [List.map_map]
    rfl
  have injective : Function.Injective (List.map String.ofList) :=
    List.map_injective_iff.mpr fun _ _ => String.ofList_injective
  rw [tokens_eq, line, all_intercalate, texts, injective.eq_iff, ← Written.all_spaced_iff,
    Written.spaced, List.flatMap_map]

namespace Command

/-- A line of written tokens gives the command that they say just if no token whose closing quote
looks like one that opens stands before a quoted one. -/
theorem ofLine?_written (first : Written) (more : List Written) :
    Command.ofLine? (" ".intercalate ((first :: more).map Written.text)) =
        some ⟨first.text, more.map Written.text⟩ ↔
      (first :: more).Pairwise fun token later => ¬ (token.IsAmbiguous ∧ later.IsQuoted) := by
  rw [ofLine?_eq_some_iff]
  exact tokens_intercalate_text_iff (first :: more)

/-- The bare word `set`. -/
def settingWord : Word := ⟨['s', 'e', 't'], by decide, by simp [isBlank], by decide⟩

/-- The arguments `a="b="` and `c="d"`. -/
def ambiguousSettings : List Written :=
  [.keyed ⟨['a'], by decide, by simp [isBlank], by decide⟩ ['b', '=']
      (.plain (by decide) (by decide) (.plain (by decide) (by decide) .nil)),
    .keyed ⟨['c'], by decide, by simp [isBlank], by decide⟩ ['d']
      (.plain (by decide) (by decide) .nil)]

/-- The first of these arguments is not read as it is written: it goes on to where the second one
should open. -/
theorem ofLine?_ambiguousSettings :
    " ".intercalate ((.bare settingWord :: ambiguousSettings).map Written.text) =
        "set a=\"b=\" c=\"d\"" ∧
      Command.ofLine? "set a=\"b=\" c=\"d\"" = some ⟨"set", ["a=\"b=\" c=\"", "d\""]⟩ ∧
      Command.ofLine? "set a=\"b=\" c=\"d\"" ≠
        some ⟨(Written.bare settingWord).text, ambiguousSettings.map Written.text⟩ := by
  decide

end Command

end SlashBot

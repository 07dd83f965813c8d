import SlashBot.Proofs.Token

/-!
# Canonical commands

The tokens of a line, joined by single spaces, are again the tokens of the joined line, as long
as the line has no line feed. Gaps were made narrower and tokens that touched were set apart, so
quotes now stand elsewhere; but a quote that did not close still does not. A line feed is
different: behind a backslash it stops the search for a quote, and a space does not.
-/

namespace SlashBot

open Text

namespace Token

variable {text front tail rest body : List Char} {c : Char}

/-- The tokens of a line, each behind a space. -/
def respaced (line : List Char) : List Char :=
  (all line).flatMap (' ' :: ·)

theorem respaced_blank (blank : isBlank c = true) : respaced (c :: rest) = respaced rest := by
  rw [respaced, all_blank blank, respaced]

theorem respaced_token (solid : isBlank c = false) (reading : Reading c tail rest) :
    respaced (c :: (tail ++ rest)) = ' ' :: c :: (tail ++ respaced rest) := by
  rw [respaced, all_token solid reading, List.flatMap_cons, respaced]
  rfl

/-- What starts with a space or is empty does not go on with a word. -/
theorem respaced_cases (line : List Char) :
    respaced line = [] ∨ ∃ more, respaced line = ' ' :: more := by
  rw [respaced]
  cases all line with
  | nil => exact .inl rfl
  | cons token more => exact .inr ⟨_, rfl⟩

/-! ## Quotes that do not close -/

theorem closingLength?_cons_eq_none (notQuote : c ≠ '"') (notEscape : c ≠ '\\') :
    closingLength? (c :: rest) = none ↔ closingLength? rest = none := by
  rw [closingLength?_plain notQuote notEscape, Option.map_eq_none_iff]

theorem closingLength?_blank (blank : isBlank c = true) :
    closingLength? (c :: rest) = none ↔ closingLength? rest = none := by
  apply closingLength?_cons_eq_none
  · rintro rfl
    cases blank
  · rintro rfl
    cases blank

theorem IsBody.closingLength?_eq_none (proper : IsBody body) :
    closingLength? (body ++ rest) = none ↔ closingLength? rest = none := by
  rw [proper.closingLength?_append, Option.map_eq_none_iff]

/-- A token that ends within an escape is a bare word, and a blank or nothing follows it. -/
theorem Reading.ends_of_escape (reading : Reading c tail rest)
    (ending : (c :: tail).getLast? = some '\\') : EndsWord rest := by
  cases reading with
  | keyed front body solid proper written last =>
      rw [written] at ending
      simp [List.getLast?_cons, List.getLast?_append] at ending
  | quoted body opened proper written keyless =>
      rw [written] at ending
      simp [List.getLast?_cons, List.getLast?_append] at ending
  | bare solid ends keyless unclosed => exact ends

/-- From anywhere in a token, a quote that does not close does not close either if the tokens that
follow are set anew. -/
theorem Reading.keeps_unclosed {inner : List Char} (reading : Reading c tail rest)
    (suffix : inner <:+ c :: tail) (feedless : '\n' ∉ inner ++ rest)
    (later : closingLength? rest = none → closingLength? (respaced rest) = none)
    (unclosed : closingLength? (inner ++ rest) = none) :
    closingLength? (inner ++ respaced rest) = none := by
  rw [List.mem_append, not_or] at feedless
  cases closed : closingLength? inner with
  | some size =>
      obtain ⟨body, more, proper, rfl, -⟩ := of_closingLength?_eq_some closed
      rw [List.append_assoc, List.cons_append, proper.closingLength?_quote] at unclosed
      cases unclosed
  | none =>
      rcases of_closingLength?_eq_none feedless.1 closed with proper | ⟨body, proper, rfl⟩
      · rw [proper.closingLength?_eq_none] at unclosed ⊢
        exact later unclosed
      · -- The escape takes a character of the gap with it, which was and is there.
        have ending : (c :: tail).getLast? = some '\\' := by
          obtain ⟨front, whole⟩ := suffix
          rw [← whole]
          simp [List.getLast?_append]
        have ends := reading.ends_of_escape ending
        rw [List.append_assoc, proper.closingLength?_eq_none] at unclosed ⊢
        rcases respaced_cases rest with empty | ⟨more, spaced⟩
        · rw [empty]
          rfl
        · cases rest with
          | nil => cases spaced
          | cons d gap =>
              have blank : isBlank d = true := ends d rfl
              have notFeed : d ≠ '\n' := fun feed => feedless.2 (by simp [feed])
              rw [List.singleton_append, closingLength?_escaped notFeed,
                Option.map_eq_none_iff] at unclosed
              have kept := later ((closingLength?_blank blank).mpr unclosed)
              rw [spaced] at kept ⊢
              rw [List.singleton_append, closingLength?_escaped (by decide),
                Option.map_eq_none_iff]
              exact (closingLength?_blank rfl).mp kept

theorem closingLength?_respaced {line : List Char} (feedless : '\n' ∉ line)
    (unclosed : closingLength? line = none) : closingLength? (respaced line) = none := by
  induction line using line_induction with
  | nil => rfl
  | blank c rest blank ih =>
      rw [respaced_blank blank]
      exact ih (fun feed => feedless (List.mem_cons_of_mem c feed))
        ((closingLength?_blank blank).mp unclosed)
  | token c tail rest solid reading ih =>
      rw [respaced_token solid reading, closingLength?_blank rfl]
      have feedlessRest : '\n' ∉ rest := fun feed =>
        feedless (List.mem_cons_of_mem c (List.mem_append_right tail feed))
      exact reading.keeps_unclosed (List.suffix_refl _) feedless (ih feedlessRest)
        unclosed

/-! ## Readings in front of other tokens -/

/-- A word without a key is one in front of other texts, too, if quotes on it do not close
there. -/
theorem Keyless.of_append {following : List Char} (keyless : Keyless (tail ++ rest))
    (ends : EndsWord following)
    (kept : ∀ inner, inner <:+ tail → closingLength? (inner ++ rest) = none →
      closingLength? (inner ++ following) = none) : Keyless (tail ++ following) := by
  intro front more solid written
  obtain ⟨inner, rfl, rfl⟩ := exists_of_sign_on_word ends solid written
  apply kept inner ⟨front ++ ['=', '"'], by simp⟩
  exact keyless front (inner ++ rest) solid (by simp)

theorem endsWord_respaced (line : List Char) : EndsWord (respaced line) := by
  intro d first
  rcases respaced_cases line with empty | ⟨more, spaced⟩
  · rw [empty] at first
    cases first
  · rw [spaced] at first
    cases first
    rfl

/-- A token is read in the same way if the tokens that follow are set anew. -/
theorem Reading.before_respaced (reading : Reading c tail rest) (feedless : '\n' ∉ tail ++ rest) :
    Reading c tail (respaced rest) := by
  have feeds : ∀ inner, inner <:+ tail → '\n' ∉ inner ++ rest := by
    intro inner suffix feed
    rcases List.mem_append.mp feed with inInner | inRest
    · exact feedless (List.mem_append_left rest (suffix.subset inInner))
    · exact feedless (List.mem_append_right tail inRest)
  have kept (inner : List Char) (suffix : inner <:+ tail)
      (unclosed : closingLength? (inner ++ rest) = none) :
      closingLength? (inner ++ respaced rest) = none :=
    reading.keeps_unclosed (suffix.trans (List.suffix_cons c tail))
      (feeds inner suffix) (closingLength?_respaced (feeds [] (List.nil_suffix))) unclosed
  have ends := endsWord_respaced rest
  cases reading with
  | keyed front body solid proper written last =>
      have ending : ∀ following, body ++ '"' :: following = (body ++ ['"']) ++ following := by simp
      refine .keyed front body solid proper written ?_
      rw [ending] at last ⊢
      refine last.of_append ends ?_
      intro inner suffix
      exact kept inner (suffix.trans ⟨front ++ ['=', '"'], by simp [written]⟩)
  | quoted body opened proper written keyless =>
      exact .quoted body opened proper written (keyless.of_append ends kept)
  | bare solid _ keyless unclosed =>
      exact .bare solid ends (keyless.of_append ends kept) fun opened =>
        kept tail (List.suffix_refl tail) (unclosed opened)

/-- The tokens of a line are those of its tokens with a space in front of each. -/
theorem all_respaced {line : List Char} (feedless : '\n' ∉ line) :
    all (respaced line) = all line := by
  induction line using line_induction with
  | nil => rfl
  | blank c rest blank ih =>
      rw [respaced_blank blank, all_blank blank]
      exact ih fun feed => feedless (List.mem_cons_of_mem c feed)
  | token c tail rest solid reading ih =>
      have feedlessTail : '\n' ∉ tail ++ rest := fun feed =>
        feedless (List.mem_cons_of_mem c feed)
      have feedlessRest : '\n' ∉ rest := fun feed =>
        feedlessTail (List.mem_append_right tail feed)
      rw [respaced_token solid reading, all_blank rfl,
        all_token solid (reading.before_respaced feedlessTail), all_token solid reading,
        ih feedlessRest]

theorem intercalate_cons (piece : List Char) (pieces : List (List Char)) :
    [' '].intercalate (piece :: pieces) = piece ++ pieces.flatMap (' ' :: ·) := by
  induction pieces generalizing piece with
  | nil => simp
  | cons next pieces ih => simp [List.intercalate_cons_cons, ih]

/-- Joining pieces by spaces only leaves out the first of the spaces. -/
theorem all_intercalate (pieces : List (List Char)) :
    all ([' '].intercalate pieces) = all (pieces.flatMap (' ' :: ·)) := by
  cases pieces with
  | nil => rfl
  | cons piece pieces =>
      rw [intercalate_cons, List.flatMap_cons, List.cons_append, all_blank rfl]

/-- The tokens of a line, joined by single spaces. -/
theorem all_intercalate_all {line : List Char} (feedless : '\n' ∉ line) :
    all ([' '].intercalate (all line)) = all line :=
  (all_intercalate (all line)).trans (all_respaced feedless)

/-- Tokens that are joined by single spaces start and end with characters that are not blank. -/
theorem isTrimmed_intercalate {pieces : List (List Char)}
    (proper : ∀ piece ∈ pieces, piece ≠ [] ∧ IsTrimmed piece) :
    IsTrimmed ([' '].intercalate pieces) := by
  induction pieces with
  | nil => exact ⟨nofun, nofun⟩
  | cons piece pieces ih =>
      obtain ⟨filled, trimmed⟩ := proper piece (by simp)
      cases pieces with
      | nil => simpa using trimmed
      | cons next pieces =>
          have later := ih fun other member => proper other (List.mem_cons_of_mem piece member)
          rw [List.intercalate_cons_cons]
          refine later.append_left ?_ ?_
          · cases piece with
            | nil => exact absurd rfl filled
            | cons c rest => exact trimmed.first
          · rw [intercalate_cons]
            exact List.append_ne_nil_of_left_ne_nil (proper next (by simp)).1 _

/-- Joining the tokens of a trimmed line does not leave just one character. -/
theorem two_le_length_intercalate {line : List Char} (trimmed : IsTrimmed line)
    (long : 2 ≤ line.length) : 2 ≤ ([' '].intercalate (all line)).length := by
  match tokenized : all line with
  | [] =>
      cases line with
      | nil => simp at long
      | cons c rest =>
          have blank := allBlank_of_all_eq_nil tokenized c (by simp)
          rw [trimmed.first c rfl] at blank
          cases blank
  | [token] =>
      rw [List.intercalate_singleton, ← eq_of_all_eq_singleton trimmed tokenized]
      exact long
  | first :: second :: more =>
      have member : first ∈ all line := by simp [tokenized]
      have filled := List.length_pos_iff.mpr (isTrimmed_of_mem_all member).1
      rw [List.intercalate_cons_cons, List.length_append, List.length_append]
      simp only [List.length_singleton]
      omega

end Token

/-! ## Commands -/

theorem joined_eq (line : String) :
    (" ".intercalate (tokens line)).toList = [' '].intercalate (Token.all line.toList) := by
  rw [String.toList_intercalate, ← all_toList]
  rfl

/-- The tokens of a line without a line feed are stable under joining. -/
theorem tokens_intercalate {line : String} (feedless : '\n' ∉ line.toList) :
    tokens (" ".intercalate (tokens line)) = tokens line := by
  rw [tokens_eq, joined_eq, Token.all_intercalate_all feedless, tokens_eq]

/-- With a line feed they are not: joined, the quotes close. -/
example : tokens "\"\\\n\"" = ["\"\\", "\""] ∧ tokens "\"\\ \"" = ["\"\\ \""] := by
  decide

namespace Command

/-- The canonical text of a command: the trigger, its name and its arguments, with single
spaces. -/
def canonical (trigger : String) (command : Command) : String :=
  trigger ++ command.name ++ " " ++ command.input

variable {trigger body line : String} {command : Command}

/-- The canonical text is the trigger with the joined tokens, but a command without arguments
leaves a space behind. -/
theorem toList_canonical (named : Command.ofLine? line = some command) :
    (command.canonical trigger).toList =
      trigger.toList ++ (" ".intercalate (tokens line)).toList ++
        (if command.args = [] then [' '] else []) := by
  rw [canonical, input, ofLine?_eq_some_iff.mp named]
  cases command.args with
  | nil => simp
  | cons first more => simp

theorem joined_ne_nil (named : Command.ofLine? line = some command) :
    (" ".intercalate (tokens line)).toList ≠ [] := by
  have member : command.name.toList ∈ Token.all line.toList := by simp [all_eq named]
  rw [joined_eq, all_eq named, Token.intercalate_cons]
  exact List.append_ne_nil_of_left_ne_nil (Token.isTrimmed_of_mem_all member).1 _

/-- The trigger with the joined tokens has no blank at an end, as the first line of the comment
has none. -/
theorem isTrimmed_joined (given : commandLine? trigger body = some line)
    (named : Command.ofLine? line = some command) :
    IsTrimmed (trigger.toList ++ (" ".intercalate (tokens line)).toList) := by
  have trimmed := isTrimmed_trim (firstLine body.toList)
  rw [(commandLine?_eq_some_iff.mp given).2] at trimmed
  have joined : IsTrimmed (" ".intercalate (tokens line)).toList := by
    rw [joined_eq]
    exact Token.isTrimmed_intercalate fun piece member => Token.isTrimmed_of_mem_all member
  refine joined.append_left ?_ (joined_ne_nil named)
  intro c first
  apply trimmed.first
  rw [List.head?_append, first]
  rfl

theorem two_le_length_joined (given : commandLine? trigger body = some line)
    (named : Command.ofLine? line = some command) :
    2 ≤ (trigger.toList ++ (" ".intercalate (tokens line)).toList).length := by
  obtain ⟨long, whole⟩ := commandLine?_eq_some_iff.mp given
  cases written : trigger.toList with
  | nil =>
      have trimmed := isTrimmed_trim (firstLine body.toList)
      rw [whole, written, List.nil_append] at long trimmed
      rw [List.nil_append, joined_eq]
      exact Token.two_le_length_intercalate trimmed long
  | cons c rest =>
      have filled := List.length_pos_iff.mpr (joined_ne_nil named)
      simp only [List.cons_append, List.length_cons, List.length_append]
      omega

theorem not_isLineBreak_joined {c : Char} (given : commandLine? trigger body = some line)
    (member : c ∈ trigger.toList ++ (" ".intercalate (tokens line)).toList) :
    isLineBreak c = false := by
  have inLine : c = ' ' ∨ c ∈ trigger.toList ++ line.toList := by
    rcases List.mem_append.mp member with inTrigger | inJoined
    · exact .inr (List.mem_append_left _ inTrigger)
    · rw [joined_eq] at inJoined
      rcases of_mem_intercalate inJoined with space | ⟨token, among, inToken⟩
      · exact .inl space
      · exact .inr (List.mem_append_right _ (Token.mem_line_of_mem_all among inToken))
  rcases inLine with rfl | inLine
  · rfl
  · exact not_isLineBreak_of_commandLine? given inLine

/-- What the canonical text of a command is as a comment: the joined tokens. -/
theorem commandLine?_canonical (given : commandLine? trigger body = some line)
    (named : Command.ofLine? line = some command) :
    commandLine? trigger (command.canonical trigger) = some (" ".intercalate (tokens line)) := by
  have trimmed := isTrimmed_joined given named
  have long := two_le_length_joined given named
  have filled : trigger.toList ++ (" ".intercalate (tokens line)).toList ≠ [] :=
    List.append_ne_nil_of_right_ne_nil _ (joined_ne_nil named)
  have single : firstLine (command.canonical trigger).toList =
      (command.canonical trigger).toList := by
    rw [firstLine, List.takeWhile_eq_self_iff, toList_canonical named]
    intro c member
    rcases List.mem_append.mp member with inJoined | space
    · simp [not_isLineBreak_joined given inJoined]
    · have isSpace : c = ' ' := by
        split at space
        · exact List.mem_singleton.mp space
        · cases space
      rw [isSpace]
      rfl
  have read : trim (firstLine (command.canonical trigger).toList) =
      trigger.toList ++ (" ".intercalate (tokens line)).toList := by
    rw [single, toList_canonical named]
    split
    · exact trimmed.trim_append filled rfl
    · rw [List.append_nil, trimmed.trim_eq]
  rw [commandLine?_eq_some_iff, read]
  exact ⟨long, rfl⟩

/-- A command can be written anew: its canonical text is a comment that gives the same command.
So are the tokens of any line without a line feed. -/
theorem ofLine?_canonical :
    (∀ trigger body line command, commandLine? trigger body = some line →
      Command.ofLine? line = some command →
      ∃ again, commandLine? trigger (command.canonical trigger) = some again ∧
        Command.ofLine? again = some command) ∧
    ∀ line : String, '\n' ∉ line.toList → tokens line ≠ [] →
      tokens (" ".intercalate (tokens line)) = tokens line := by
  refine ⟨?_, fun line feedless _ => tokens_intercalate feedless⟩
  intro trigger body line command given named
  refine ⟨_, commandLine?_canonical given named, ?_⟩
  have feedless : '\n' ∉ line.toList := by
    intro feed
    have unbroken := not_isLineBreak_of_commandLine? given (List.mem_append_right _ feed)
    cases unbroken
  rw [ofLine?_eq_some_iff, tokens_intercalate feedless]
  exact ofLine?_eq_some_iff.mp named

/-- A comment with wide gaps, tokens that touch, and a quote that does not close. -/
def touchingComment : String := "  /set  a=\"b  c\"d\t\"e\n/other"

/-- Its command is the same when it is written with single spaces. -/
theorem ofLine?_canonical_touching :
    commandLine? "/" touchingComment = some "set  a=\"b  c\"d\t\"e" ∧
      Command.ofLine? "set  a=\"b  c\"d\t\"e" = some ⟨"set", ["a=\"b  c\"", "d", "\"e"]⟩ ∧
      (∃ again, commandLine? "/" "/set a=\"b  c\" d \"e" = some again ∧
        Command.ofLine? again = some ⟨"set", ["a=\"b  c\"", "d", "\"e"]⟩) ∧
      tokens (" ".intercalate (tokens "x\t\"y\"z")) = tokens "x\t\"y\"z" := by
  have given : commandLine? "/" touchingComment = some "set  a=\"b  c\"d\t\"e" := by decide
  have named : Command.ofLine? "set  a=\"b  c\"d\t\"e" =
      some ⟨"set", ["a=\"b  c\"", "d", "\"e"]⟩ := by decide
  have written : (⟨"set", ["a=\"b  c\"", "d", "\"e"]⟩ : Command).canonical "/" =
      "/set a=\"b  c\" d \"e" := by decide
  refine ⟨given, named, ?_, ofLine?_canonical.2 _ (by decide) (by decide)⟩
  rw [← written]
  exact ofLine?_canonical.1 _ _ _ _ given named

end Command

end SlashBot

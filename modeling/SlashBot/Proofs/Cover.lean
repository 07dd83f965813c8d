import SlashBot.Proofs.Token

/-!
# What is left of a line

The tokens of a line stand on it one behind the other, and between them there are only blanks.
So a line loses nothing but blanks: however a quote is opened, left open or escaped, every other
character is part of exactly one token, at its place.
-/

namespace SlashBot

open Text

namespace Token

variable {line gap rest : List Char} {tokens : List (List Char)} {c : Char}

/-- These tokens stand on the line in this order, with nothing but blanks before, between and
behind them. None of them is empty or starts with a blank. -/
inductive Covers : (tokens : List (List Char)) → (line : List Char) → Prop where
  | gap {gap : List Char} (blank : allBlank gap = true) : Covers [] gap
  | token {gap token rest : List Char} {tokens : List (List Char)} (blank : allBlank gap = true)
      (filled : token ≠ []) (starts : ∀ c ∈ token.head?, isBlank c = false) :
      Covers tokens rest → Covers (token :: tokens) (gap ++ token ++ rest)

theorem Covers.blank (covers : Covers tokens rest) (blank : isBlank c = true) :
    Covers tokens (c :: rest) := by
  cases covers with
  | gap allBlanks => exact .gap (by simpa [allBlank, blank] using allBlanks)
  | token allBlanks filled starts later =>
      rw [← List.cons_append, ← List.cons_append]
      exact .token (by simpa [allBlank, blank] using allBlanks) filled starts later

/-- The tokens that are found on a line cover it. -/
theorem covers_all (line : List Char) : Covers (all line) line := by
  induction line using line_induction with
  | nil => exact .gap rfl
  | blank c rest blank ih =>
      rw [all_blank blank]
      exact ih.blank blank
  | token c tail rest solid reading ih =>
      rw [all_token solid reading]
      exact @Covers.token [] _ _ _ rfl (List.cons_ne_nil c tail) (by simpa using solid) ih

/-- Only a blank line is covered by no tokens. -/
theorem Covers.eq_nil_iff (covers : Covers tokens line) :
    tokens = [] ↔ allBlank line = true := by
  cases covers with
  | gap blank => simpa using blank
  | @token gap token rest tokens blank filled starts later =>
      obtain ⟨c, tail, rfl⟩ := List.exists_cons_of_ne_nil filled
      have solid : isBlank c = false := starts c rfl
      simp [allBlank, solid]

theorem filter_of_allBlank (blank : allBlank gap = true) :
    gap.filter (fun c => !isBlank c) = [] := by
  rw [List.filter_eq_nil_iff]
  intro c member
  simpa using List.all_eq_true.mp blank c member

/-- Without its blanks a line is the text of its tokens without theirs. -/
theorem Covers.filter_eq (covers : Covers tokens line) :
    line.filter (fun c => !isBlank c) = tokens.flatten.filter fun c => !isBlank c := by
  induction covers with
  | gap blank => rw [filter_of_allBlank blank, List.flatten_nil, List.filter_nil]
  | token blank filled starts later ih =>
      rw [List.filter_append, List.filter_append, filter_of_allBlank blank, List.nil_append, ih,
        List.flatten_cons, List.filter_append]

end Token

/-- The name of a command and its arguments, in the order in which they stand on a line. There
are none without a command. -/
def Command.spoken : (command : Option Command) → List (List Char)
  | none => []
  | some command => command.name.toList :: command.args.map String.toList

theorem Command.spoken_ofLine? (line : String) :
    Command.spoken (Command.ofLine? line) = Token.all line.toList := by
  cases named : Command.ofLine? line with
  | none =>
      have none : tokens line = [] := by
        rw [Command.ofLine?] at named
        split at named
        · assumption
        · cases named
      rw [all_toList, none]
      rfl
  | some command => exact (Command.all_eq named).symm

/-- What a line says is not lost: its command covers it, there is none just if the line is blank,
and apart from blanks the line and its command have the same text. -/
theorem Command.ofLine?_losesNothing (line : String) :
    Token.Covers (Command.spoken (Command.ofLine? line)) line.toList ∧
      (Command.ofLine? line = none ↔ allBlank line.toList = true) ∧
      line.toList.filter (fun c => !isBlank c) =
        (Command.spoken (Command.ofLine? line)).flatten.filter fun c => !isBlank c := by
  have covers := Token.covers_all line.toList
  rw [← Command.spoken_ofLine?] at covers
  refine ⟨covers, ?_, covers.filter_eq⟩
  rw [← covers.eq_nil_iff]
  cases Command.ofLine? line with
  | none => simp [Command.spoken]
  | some command => simp [Command.spoken]

end SlashBot

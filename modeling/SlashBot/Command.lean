import SlashBot.Text.Line

/-!
# Commands in comments

The first line of a comment is a command if it starts with the trigger. A command
is a list of tokens: bare words, quoted texts, and words with a quoted text after
an equals sign. A backslash inside quotes takes the next character with it, but
no line feed.
-/

namespace SlashBot

open SlashBot.Text

/-- A command: its name and its arguments, quotes included. -/
structure Command where
  name : String
  args : List String
  deriving DecidableEq, Repr

/-- The arguments joined by single spaces. -/
def Command.input (command : Command) : String :=
  " ".intercalate command.args

namespace Token

/-- The number of characters up to the quote that closes, counted from behind the
opening one. -/
def closingLength? : (text : List Char) → Option Nat
  | [] => none
  | '"' :: _ => some 1
  | '\\' :: c :: rest => if c == '\n' then none else (closingLength? rest).map (· + 2)
  | ['\\'] => none
  | _ :: rest => (closingLength? rest).map (· + 1)

/-- The length of a token whose equals sign with a quote stands in this stretch, at
the last place where the quote is closed. -/
def keyedLength? : (text : List Char) → Option Nat
  | [] => none
  | '=' :: '"' :: rest =>
      match keyedLength? ('"' :: rest) with
      | some length => some (length + 1)
      | none => (closingLength? rest).map (· + 2)
  | c :: rest => if isBlank c then none else (keyedLength? rest).map (· + 1)

/-- The length of a quoted text at the front. -/
def quotedLength? : (text : List Char) → Option Nat
  | '"' :: rest => (closingLength? rest).map (· + 1)
  | _ => none

/-- The length of the stretch without blanks at the front. -/
def bareLength (text : List Char) : Nat :=
  (text.takeWhile fun c => !isBlank c).length

/-- The length of the token that starts with a character that is not blank. -/
def length (c : Char) (rest : List Char) : Nat :=
  match keyedLength? rest with
  | some length => length + 1
  | none => (quotedLength? (c :: rest)).getD (bareLength rest + 1)

/-- The tokens of a line, with fuel for each character. -/
def split : (fuel : Nat) → (line : List Char) → List (List Char)
  | 0, _ => []
  | _, [] => []
  | fuel + 1, c :: rest =>
      if isBlank c then split fuel rest
      else
        let size := length c rest
        (c :: rest).take size :: split fuel ((c :: rest).drop size)

end Token

/-- The tokens of a line. -/
def tokens (line : String) : List String :=
  (Token.split line.length line.toList).map String.ofList

/-- The command on a line, if the line has a token. -/
def Command.ofLine? (line : String) : Option Command :=
  match tokens line with
  | [] => none
  | name :: args => some ⟨name, args⟩

/-- The first line of a comment behind the trigger, if the comment is a command. A
line that is just one character never is. -/
def commandLine? (trigger body : String) : Option String :=
  let line := trim (firstLine body.toList)
  if 2 ≤ line.length && trigger.toList.isPrefixOf line then
    some (String.ofList (line.drop trigger.length))
  else none

/-- The command of a comment, if it has one. -/
def Command.ofComment? (trigger body : String) : Option Command :=
  (commandLine? trigger body).bind Command.ofLine?

end SlashBot

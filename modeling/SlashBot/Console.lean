import SlashBot.Environment
import SlashBot.Text.Digit

/-!
# Log lines

A program says entries; the console decides how they are shown. Details are shown
only where debugging is on, and dimmed where the terminal has a name.
-/

namespace SlashBot

/-- An entry of the log. -/
inductive Entry where
  | status (icon message : String) (dim : Bool)
  | detail (message : String)
  | plain (text : String)
  deriving DecidableEq, Repr

namespace Entry

/-- A status that is not dimmed. -/
def note (icon message : String) : Entry := status icon message false

/-- Something that was left out. -/
def warning (message : String) : Entry := note "⚠️" message

/-- Something that went wrong. -/
def error (message : String) : Entry := note "❌" message

end Entry

/-- How entries are shown: with the time of day, with or without details and
styles. -/
structure Console where
  clock : String
  verbose : Bool
  styled : Bool

namespace Console

/-- The time of day after some seconds, as log lines show it. -/
def clockText (seconds : Nat) : String :=
  let shown (n : Nat) : String := Text.zeroFilled 2 n
  shown (seconds / 3600 % 24) ++ ":" ++ shown (seconds / 60 % 60) ++ ":" ++ shown (seconds % 60)

/-- The console that an environment asks for. -/
def ofEnvironment (environment : Environment) (clock : String) : Console :=
  { clock := clock
    verbose := environment.get? "RUNNER_DEBUG" == some "1" || environment.get? "DEBUG" == some "1"
    styled := (environment.get? "TERM").isSome }

/-- A line with the time, an icon and a message. -/
def line (console : Console) (icon message : String) (dim : Bool) : String :=
  let text := "[" ++ console.clock ++ "] " ++ icon ++ " " ++ message
  if dim && console.styled then "\x1b[2m" ++ text ++ "\x1b[0m" else text

/-- The line of an entry, if it is shown. -/
def show? (console : Console) : (entry : Entry) → Option String
  | .status icon message dim => some (console.line icon message dim)
  | .detail message => if console.verbose then some (console.line "·" message true) else none
  | .plain text => some text

/-- The lines that are shown. -/
def shown (console : Console) (entries : List Entry) : List String :=
  entries.filterMap console.show?

end Console

/-- A text cut for a log line: line feeds become spaces, and three points stand for
what exceeds the limit. A negative limit counts from the end. -/
def clip (limit : Int) (text : String) : String :=
  let chars := text.toList.map fun c => if c == '\n' then ' ' else c
  let length := if limit < 0 then chars.length - limit.natAbs else limit.toNat
  String.ofList (chars.take length) ++ (if (chars.length : Int) > limit then "..." else "")

/-- The length to which log lines cut a comment. -/
def clipLimit : Int := 50

end SlashBot

import SlashBot.Number.Integer

/-!
# Words of the command line

There are two commands, each with options of its own. An option may be shortened
as long as it stays unambiguous, and a text may be attached to it in the same word.
Negative numbers and words with a space are no options, unless they begin like one.
-/

namespace SlashBot.CommandLine

open SlashBot.Number
open SlashBot.Text

/-- What an option sets. -/
inductive Flag where
  | help
  | event
  | eventPath
  | repository
  | config
  | host
  | port
  deriving DecidableEq, Repr

/-- The spellings of the options that a command has. -/
abbrev Spellings := List (String × Flag)

/-- The options in front of the command. -/
def commonSpellings : Spellings := [("-h", .help), ("--help", .help)]

/-- The options of the command that handles an event. -/
def runSpellings : Spellings :=
  commonSpellings ++
    [("--event", .event), ("-e", .event), ("--event-path", .eventPath), ("--repo", .repository),
      ("-r", .repository), ("--config", .config), ("-c", .config)]

/-- The options of the command that serves deliveries. -/
def serveSpellings : Spellings :=
  commonSpellings ++ [("--host", .host), ("--port", .port), ("-p", .port)]

/-- Why the command line gives no work: help was asked for, or the words are not used
rightly. -/
inductive Halt where
  | helped
  | misused
  deriving DecidableEq, Repr

/-- A text that is a part of the same word as an option: behind an equals sign, or right
behind the letter of a short option. -/
inductive Attachment where
  | none
  | byEquals (text : List Char)
  | direct (text : List Char)
  deriving DecidableEq, Repr

/-- The text of an attachment, if there is one. -/
def Attachment.text? : Attachment → Option (List Char)
  | none => Option.none
  | byEquals text | direct text => some text

/-- What a word of the command line is. -/
inductive Word where
  | plain (text : String)
  | option (flag : Flag) (attachment : Attachment)
  | unknown
  | separator
  deriving DecidableEq, Repr

/-- A negative number, which is never an option: digits, or a point with digits
behind it and perhaps before it. One line feed may follow. -/
def isNegativeNumber : (text : List Char) → Bool
  | '-' :: rest =>
      let isDigit (c : Char) : Bool := (decimalDigit? c).isSome
      let body := if rest.getLast? == some '\n' then rest.dropLast else rest
      match body.span isDigit with
      | (whole, []) => !whole.isEmpty
      | (_, '.' :: fraction) => !fraction.isEmpty && fraction.all isDigit
      | _ => false
  | _ => false

/-- The text before the first equals sign and what is attached by it. -/
def splitEquals (text : List Char) : List Char × Attachment :=
  match text.span (· != '=') with
  | (before, _ :: after) => (before, .byEquals after)
  | (before, []) => (before, .none)

/-- The options that a word may mean which is no spelling itself. A word with two
hyphens may be the beginning of a spelling; one with a single hyphen may be a
spelling of one letter with a text attached. -/
def candidates (spellings : Spellings) (text : List Char) : List (Flag × Attachment) :=
  match text with
  | '-' :: '-' :: _ =>
      let (start, attachment) := splitEquals text
      (spellings.filter fun (spelling, _) => start.isPrefixOf spelling.toList).map
        fun (_, flag) => (flag, attachment)
  | _ =>
      (spellings.filter fun (spelling, _) => spelling.toList == text.take 2).map
        fun (_, flag) => (flag, .direct (text.drop 2))

/-- The option whose spelling stands before the first equals sign of a word. -/
def exactOption? (spellings : Spellings) (text : List Char) : Option (Flag × Attachment) :=
  let (before, attachment) := splitEquals text
  (spellings.lookup (String.ofList before)).map fun flag => (flag, attachment)

/-- Tells what a word is. Numbers and words with a space are no options, unless they
begin like one. -/
def Word.ofText (spellings : Spellings) (text : String) : Except Halt Word :=
  let chars := text.toList
  match chars with
  | '-' :: _ :: _ =>
      match exactOption? spellings chars with
      | some (flag, attachment) => .ok (.option flag attachment)
      | none =>
          match candidates spellings chars with
          | [(flag, attachment)] => .ok (.option flag attachment)
          | _ :: _ :: _ => .error .misused
          | [] =>
              if isNegativeNumber chars || chars.contains ' ' then .ok (.plain text)
              else .ok .unknown
  | _ => .ok (.plain text)

/-- Tells what the words are. Behind a separator nothing is an option. -/
def wordsOf (spellings : Spellings) : (texts : List String) → Except Halt (List Word)
  | [] => .ok []
  | text :: rest =>
      if text == "--" then .ok (.separator :: rest.map .plain)
      else do return (← Word.ofText spellings text) :: (← wordsOf spellings rest)

end SlashBot.CommandLine

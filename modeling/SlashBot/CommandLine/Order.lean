import SlashBot.CommandLine.Word

/-!
# Orders

An order is what the command line asks for. The words of a command are told apart
before any of them is acted on; then the first one that cannot be acted on, or that
asks for help, decides. Words that are left over are only complained about at the end.
-/

namespace SlashBot.CommandLine

open SlashBot.Number

/-- The outcome of asking for help with letters attached, which are short options in
their turn. A letter that is none ends the word; an option that takes a value must have
it, from the letters that follow or from the next word; and nothing can be attached to
help by an equals sign. -/
def clusterOutcome (spellings : Spellings) (next : Option Word) : (letters : List Char) → Halt
  | [] => .helped
  | '-' :: _ => .misused
  | letter :: more =>
      match spellings.lookup (String.ofList ['-', letter]) with
      | none => .helped
      | some .help =>
          if more.head? == some '=' then .misused else clusterOutcome spellings next more
      | some _ =>
          match more, next with
          | _ :: _, _ | [], some (.plain _) => .helped
          | [], _ => .misused

/-- The outcome of asking for help, which takes no value. -/
def helpOutcome (spellings : Spellings) (next : Option Word) : (attachment : Attachment) → Halt
  | .none => .helped
  | .byEquals _ => .misused
  | .direct letters => clusterOutcome spellings next letters

/-- The values that options were given. -/
structure Choices where
  event : Option String := none
  eventPath : Option String := none
  repository : Option String := none
  config : Option String := none
  host : Option String := none
  port : Option Int := none
  deriving DecidableEq, Repr

/-- Gives an option a value, in place of an earlier one. A port must be a number. -/
def Choices.set (choices : Choices) (flag : Flag) (text : String) : Except Halt Choices :=
  match flag with
  | .help => .ok choices
  | .event => .ok { choices with event := some text }
  | .eventPath => .ok { choices with eventPath := some text }
  | .repository => .ok { choices with repository := some text }
  | .config => .ok { choices with config := some text }
  | .host => .ok { choices with host := some text }
  | .port =>
      match readInteger? 10 text.toList with
      | some port => .ok { choices with port := some port }
      | none => .error .misused

/-- Acts on the words of a command, where `extra` tells that some were left over. -/
def collect (spellings : Spellings) (choices : Choices) (extra : Bool) :
    (words : List Word) → Except Halt Choices
  | [] => if extra then .error .misused else .ok choices
  | .plain _ :: rest | .unknown :: rest => collect spellings choices true rest
  | .separator :: _ => .error .misused
  | .option .help attachment :: rest => .error (helpOutcome spellings rest.head? attachment)
  | .option flag attachment :: rest =>
      match attachment.text?, rest with
      | some text, rest => do
          collect spellings (← choices.set flag (String.ofList text)) extra rest
      | none, .plain text :: rest => do
          collect spellings (← choices.set flag text) extra rest
      | none, _ => .error .misused

/-- What the command line asks for. -/
inductive Order where
  | run (choices : Choices)
  | serve (host : String) (port : Int)
  deriving DecidableEq, Repr

/-- Where deliveries are served, unless options say otherwise. -/
def defaultHost : String := "0.0.0.0"

/-- The port on which deliveries are served, unless an option says otherwise. -/
def defaultPort : Int := 8000

/-- What a command asks for with the texts behind it. -/
def Order.ofCommand (extra : Bool) (name : String) (texts : List String) : Except Halt Order :=
  match name with
  | "run" => do
      return .run (← collect runSpellings {} extra (← wordsOf runSpellings texts))
  | "serve" => do
      let choices ← collect serveSpellings {} extra (← wordsOf serveSpellings texts)
      return .serve (choices.host.getD defaultHost) (choices.port.getD defaultPort)
  | _ => .error .misused

/-- What the command line asks for, where `extra` tells that words were left over in
front. -/
def Order.ofTexts (extra : Bool) : (texts : List String) → Except Halt Order
  | [] => .error .misused
  | text :: rest =>
      if text == "--" then .error .misused
      else
        match Word.ofText commonSpellings text with
        | .error halt => .error halt
        | .ok (.plain name) => Order.ofCommand extra name rest
        | .ok (.option _ attachment) => .error (helpOutcome commonSpellings none attachment)
        | .ok _ => Order.ofTexts true rest

end SlashBot.CommandLine

import SlashBot.Value.Display

/-!
# Writing JSON

Requests carry their bodies as JSON without any spaces. JSON has no words for
infinite numbers and for what is not a number, so a value that holds one cannot
be written.
-/

namespace SlashBot.Json

open SlashBot.Text

mutual

/-- The value holds finite numbers only. -/
def isWritable : Value → Bool
  | .float number => number.isFinite
  | .list items => areWritable items
  | .map entries => haveWritable entries
  | _ => true

/-- All of the values hold finite numbers only. -/
def areWritable : List Value → Bool
  | [] => true
  | value :: rest => isWritable value && areWritable rest

/-- The values of all entries hold finite numbers only. -/
def haveWritable : List (Value × Value) → Bool
  | [] => true
  | (_, value) :: rest => isWritable value && haveWritable rest

end

/-- A character as it stands between quotes. -/
def writeChar (c : Char) : List Char :=
  if c == '"' || c == '\\' then ['\\', c]
  else if c == '\n' then ['\\', 'n']
  else if c == '\r' then ['\\', 'r']
  else if c == '\t' then ['\\', 't']
  else if c.toNat < 32 then '\\' :: 'u' :: lowerHex 4 c.toNat
  else [c]

/-- A text between quotes. -/
def writeText (text : String) : String :=
  "\"" ++ String.ofList (text.toList.flatMap writeChar) ++ "\""

mutual

/-- The value as JSON. What JSON does not know is written as text. -/
def write : Value → String
  | .null => "null"
  | .bool truth => if truth then "true" else "false"
  | .int number => toString number
  | .float number => number.text
  | .list items => "[" ++ ",".intercalate (writeItems items) ++ "]"
  | .map entries => "\x7b" ++ ",".intercalate (writeEntries entries) ++ "\x7d"
  | value => writeText value.display

/-- The items of a list as JSON. -/
def writeItems : List Value → List String
  | [] => []
  | value :: rest => write value :: writeItems rest

/-- The entries of a map as JSON. -/
def writeEntries : List (Value × Value) → List String
  | [] => []
  | (key, value) :: rest => (writeText key.display ++ ":" ++ write value) :: writeEntries rest

end

end SlashBot.Json

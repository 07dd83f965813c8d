import SlashBot.Number.Integer
import SlashBot.Number.Shortest
import SlashBot.Text.Quoted
import SlashBot.Value.Basic

/-!
# Values as text

A value is displayed as plain text where it is the whole of a field, and as a
literal where it is part of another value: then texts are quoted and dates show
how they are built. An integer that has too many digits is not written down at all,
and neither is a value that holds one.
-/

namespace SlashBot.Value

open SlashBot.Number
open SlashBot.Text

/-- A text between quotes. -/
def quotedText (text : String) : String :=
  String.ofList (quoted text.toList)

mutual

/-- The value as a literal. -/
def literal : Value → String
  | null => "None"
  | bool truth => if truth then "True" else "False"
  | int number => toString number
  | float number => number.text
  | str text => quotedText text
  | list items => "[" ++ ", ".intercalate (literals items) ++ "]"
  | map entries => "\x7b" ++ ", ".intercalate (entryLiterals entries) ++ "\x7d"
  | bytes octets => String.ofList (quotedOctets octets)
  | date day => day.literal
  | timestamp time => time.literal
  | pair first second => "(" ++ first.literal ++ ", " ++ second.literal ++ ")"
  | set [] => "set()"
  | set (item :: items) =>
      "\x7b" ++ ", ".intercalate (item.literal :: literals items) ++ "\x7d"

/-- The literals of several values. -/
def literals : List Value → List String
  | [] => []
  | value :: rest => value.literal :: literals rest

/-- The literals of the entries of a map. -/
def entryLiterals : List (Value × Value) → List String
  | [] => []
  | (key, value) :: rest => (key.literal ++ ": " ++ value.literal) :: entryLiterals rest

end

/-- The value as plain text. -/
def display : Value → String
  | str text => text
  | date day => day.text
  | timestamp time => time.text
  | value => value.literal

mutual

/-- No integer in the value has more digits than are written down. -/
def isWritable : Value → Bool
  | int number => number.natAbs < Nat.pow 10 maxDecimalDigits
  | list items | set items => allWritable items
  | map entries => entriesWritable entries
  | pair first second => first.isWritable && second.isWritable
  | null | bool _ | float _ | str _ | bytes _ | date _ | timestamp _ => true

/-- Several values can be written down. -/
def allWritable : List Value → Bool
  | [] => true
  | value :: rest => value.isWritable && allWritable rest

/-- The entries of a map can be written down. -/
def entriesWritable : List (Value × Value) → Bool
  | [] => true
  | (key, value) :: rest => key.isWritable && value.isWritable && entriesWritable rest

end

end SlashBot.Value

import SlashBot.Text.Blank
import SlashBot.Text.Digit

/-!
# Integers in text

An integer may stand between blanks, with a sign in front and single underscores
between its digits. In a base other than ten it may also name its base, as `0x`
does for sixteen. Digits come from any decimal script.
-/

namespace SlashBot.Number

open SlashBot.Text

/-- A blank that may surround a number: the information separators may not. -/
def isNumberBlank (c : Char) : Bool :=
  isBlank c && !(28 ≤ c.toNat && c.toNat ≤ 31)

/-- The text without the blanks around a number. -/
def trimNumber (text : List Char) : List Char :=
  dropTailWhile isNumberBlank (text.dropWhile isNumberBlank)

/-- Takes a sign off the front of a number, and tells whether it was a minus. -/
def takeSign : (text : List Char) → Bool × List Char
  | '-' :: rest => (true, rest)
  | '+' :: rest => (false, rest)
  | text => (false, text)

/-- The number that a digit stands for in a base. -/
def digitInBase? (base : Nat) (c : Char) : Option Nat :=
  ((decimalDigit? c).or (asciiDigit? c)).filter (· < base)

/-- Continues a run of digits with its total so far and the number of digits
read. An underscore must stand between two digits. -/
def readDigits (base total count : Nat) (afterDigit : Bool) :
    (text : List Char) → Option (Nat × Nat)
  | [] => if afterDigit then some (total, count) else none
  | c :: rest =>
      if c == '_' then
        if afterDigit then readDigits base total count false rest else none
      else
        match digitInBase? base c with
        | some digit => readDigits base (total * base + digit) (count + 1) true rest
        | none => none

/-- Takes the name of a base off the front of its digits, with one underscore
that may follow it. -/
def takeBaseName (base : Nat) (text : List Char) : List Char :=
  let letter? :=
    if base == 2 then some 'b' else if base == 8 then some 'o'
    else if base == 16 then some 'x' else none
  match text, letter? with
  | '0' :: c :: rest, some letter =>
      if c == letter || c == letter.toUpper then
        match rest with
        | '_' :: digits => digits
        | digits => digits
      else text
  | _, _ => text

/-- The most digits that a decimal integer may have. -/
def maxDecimalDigits : Nat := 4300

/-- The integer that a text denotes in the base, if it denotes one. -/
def readInteger? (base : Nat) (text : List Char) : Option Int := do
  let (negative, unsigned) := takeSign (trimNumber text)
  let (total, count) ← readDigits base 0 0 false (takeBaseName base unsigned)
  if base == 10 && count > maxDecimalDigits then none
  else some (if negative then -(total : Int) else total)

end SlashBot.Number

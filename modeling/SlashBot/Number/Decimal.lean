import SlashBot.Number.Double
import SlashBot.Number.Integer

/-!
# Decimal numbers in text

A decimal number has digits before or after its point, or on both sides, and may
have an exponent. Infinity and the undefined number are written as words.
-/

namespace SlashBot.Number

open SlashBot.Text

/-- The leading decimal digits of a text, and what follows them. -/
def takeDigits (text : List Char) : List Nat × List Char :=
  let digits := text.takeWhile fun c => (decimalDigit? c).isSome
  (digits.filterMap decimalDigit?, text.drop digits.length)

/-- The natural number with the given digits. -/
def ofDigits (digits : List Nat) : Nat :=
  digits.foldl (fun total digit => total * 10 + digit) 0

/-- The exponent at the end of a decimal number, zero if there is none. -/
def readExponent? : (text : List Char) → Option Int
  | [] => some 0
  | mark :: rest =>
      if mark == 'e' || mark == 'E' then
        let (negative, unsigned) := takeSign rest
        match takeDigits unsigned with
        | ([], _) | (_, _ :: _) => none
        | (digits, []) =>
            let n := ofDigits digits
            some (if negative then -(n : Int) else n)
      else none

/-- The words for numbers that have no digits, in lower case. -/
def namedDouble? (word : List Char) : Option Double :=
  match String.ofList (word.map Char.toLower) with
  | "inf" | "infinity" => some (.infinite false)
  | "nan" => some .nan
  | _ => none

/-- The number that a text denotes without a sign. -/
def readUnsignedDouble? (text : List Char) : Option Double :=
  match namedDouble? text with
  | some number => some number
  | none =>
      let (whole, rest) := takeDigits text
      let (fraction, rest) :=
        match rest with
        | '.' :: rest => takeDigits rest
        | rest => ([], rest)
      if whole.isEmpty && fraction.isEmpty then none
      else
        (readExponent? rest).map fun exponent =>
          Double.ofDecimal false (ofDigits (whole ++ fraction)) (exponent - fraction.length)

/-- The floating-point number that a text denotes, if it denotes one. -/
def readDouble? (text : List Char) : Option Double :=
  let (negative, unsigned) := takeSign (trimNumber text)
  (readUnsignedDouble? unsigned).map fun number => if negative then number.neg else number

end SlashBot.Number

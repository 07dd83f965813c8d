import SlashBot.Text.Digit

/-!
# The kind of a plain scalar

A plain scalar without a tag is a truth value, a number, a timestamp, null or one
of three signs if it is spelled as one, and text otherwise. One line feed at its
end does not count.
-/

namespace SlashBot.Yaml

open SlashBot.Text

/-- The tags whose meaning is known. -/
inductive Tag where
  | null
  | bool
  | int
  | float
  | binary
  | timestamp
  | omap
  | pairs
  | set
  | str
  | seq
  | map
  | merge
  | value
  | unknown
  deriving DecidableEq, Repr

/-- What all known tags start with. -/
def Tag.start : String := "tag:yaml.org,2002:"

/-- The known tags by the words that end them. -/
def Tag.words : List (String × Tag) :=
  [("null", null), ("bool", bool), ("int", int), ("float", float), ("binary", binary),
    ("timestamp", timestamp), ("omap", omap), ("pairs", pairs), ("set", set), ("str", str),
    ("seq", seq), ("map", map), ("merge", merge), ("value", value)]

/-- The tag with a full name. -/
def Tag.ofName (name : String) : Tag :=
  ((words.find? fun (word, _) => start ++ word == name).map (·.2)).getD unknown

/-- The spellings of the truth values. -/
def boolWords : List String :=
  ["yes", "Yes", "YES", "no", "No", "NO", "true", "True", "TRUE", "false", "False", "FALSE",
    "on", "On", "ON", "off", "Off", "OFF"]

/-- The spellings of null. -/
def nullWords : List String := ["~", "null", "Null", "NULL", ""]

/-- The text behind a sign, if there is one. -/
def dropSign (text : List Char) : List Char :=
  match text with
  | '+' :: rest | '-' :: rest => rest
  | text => text

/-- A decimal digit or an underscore. -/
def isSpacedDigit (c : Char) : Bool :=
  isAsciiDigit c || c == '_'

/-- Groups of sixty: one or more colons, each with a number below sixty behind it.
Gives what follows the last of them. -/
def dropSixties? : (fuel : Nat) → (text : List Char) → Option (List Char)
  | 0, _ => none
  | fuel + 1, ':' :: rest =>
      let digits := rest.takeWhile isAsciiDigit
      let after := rest.dropWhile isAsciiDigit
      let fits :=
        match digits with
        | [_] => true
        | [tens, _] => tens.toNat < 54
        | _ => false
      if !fits then none
      else if after.head? == some ':' then dropSixties? fuel after
      else some after
  | _, _ => none

/-- The spelling of an integer without its sign. -/
def isUnsignedInt (text : List Char) : Bool :=
  match text with
  | '0' :: 'b' :: digits =>
      !digits.isEmpty && digits.all fun c => c == '0' || c == '1' || c == '_'
  | '0' :: 'x' :: digits =>
      !digits.isEmpty && digits.all fun c => (hexDigit? c).isSome || c == '_'
  | ['0'] => true
  | '0' :: digits => digits.all fun c => ('0' ≤ c && c ≤ '7') || c == '_'
  | c :: rest =>
      isAsciiDigit c &&
        (rest.all isSpacedDigit ||
          dropSixties? text.length (rest.dropWhile isSpacedDigit) == some [])
  | [] => false

/-- The exponent of a number, or nothing. Its sign is required. -/
def isExponentOrEmpty (text : List Char) : Bool :=
  match text with
  | [] => true
  | mark :: sign :: digits =>
      (mark == 'e' || mark == 'E') && (sign == '+' || sign == '-') && !digits.isEmpty &&
        digits.all isAsciiDigit
  | _ => false

/-- The spelling of a number with a point or in groups of sixty, without its
sign. -/
def isUnsignedFloat (text : List Char) : Bool :=
  match text with
  | c :: rest =>
      isAsciiDigit c &&
        match rest.dropWhile isSpacedDigit with
        | '.' :: rest => isExponentOrEmpty (rest.dropWhile isSpacedDigit)
        | ':' :: rest =>
            match dropSixties? text.length (':' :: rest) with
            | some ('.' :: rest) => rest.all isSpacedDigit
            | _ => false
        | _ => false
  | [] => false

/-- The spelling of a floating-point number. -/
def isFloat (text : List Char) : Bool :=
  isUnsignedFloat (dropSign text) ||
    [".inf", ".Inf", ".INF"].contains (String.ofList (dropSign text)) ||
    [".nan", ".NaN", ".NAN"].contains (String.ofList text) ||
    match text with
    | '.' :: c :: rest => isAsciiDigit c && isExponentOrEmpty (rest.dropWhile isSpacedDigit)
    | _ => false

/-- The digits of a timestamp, field by field. -/
structure TimestampText where
  year : List Char
  month : List Char
  day : List Char
  clock : Option (List Char × List Char × List Char)
  fraction : List Char
  zone : Option (Option (Bool × List Char × List Char))

/-- Takes digits off the front of a text, if their number is in the range. -/
def takeField? (least most : Nat) (text : List Char) : Option (List Char × List Char) :=
  let digits := text.takeWhile isAsciiDigit
  if least ≤ digits.length ∧ digits.length ≤ most then some (digits, text.dropWhile isAsciiDigit)
  else none

/-- Takes a character off the front of a text. -/
def takeMark? (mark : Char) (text : List Char) : Option (List Char) :=
  match text with
  | c :: rest => if c == mark then some rest else none
  | [] => none

/-- The zone at the end of a timestamp: none, the mark of universal time, or a
signed offset. -/
def readZone? (text : List Char) : Option (Option (Option (Bool × List Char × List Char))) :=
  if text.isEmpty then some none
  else
    match text.dropWhile fun c => c == ' ' || c == '\t' with
    | ['Z'] => some (some none)
    | sign :: rest => do
        if sign == '+' || sign == '-' then
          let (hours, rest) ← takeField? 1 2 rest
          match rest with
          | [] => some (some (some (sign == '-', hours, [])))
          | ':' :: rest =>
              let (minutes, rest) ← takeField? 2 2 rest
              if rest.isEmpty then some (some (some (sign == '-', hours, minutes))) else none
          | _ => none
        else none
    | [] => none

/-- The text behind the mark between a date and a time. -/
def dropClockMark? (text : List Char) : Option (List Char) :=
  match text with
  | 'T' :: rest | 't' :: rest => some rest
  | text =>
      let rest := text.dropWhile fun c => c == ' ' || c == '\t'
      if rest.length < text.length then some rest else none

/-- The fields of a timestamp. -/
def TimestampText.ofText? (text : List Char) : Option TimestampText := do
  let (year, rest) ← takeField? 4 4 text
  let (month, rest) ← takeField? 1 2 (← takeMark? '-' rest)
  let (day, rest) ← takeField? 1 2 (← takeMark? '-' rest)
  if rest.isEmpty then return ⟨year, month, day, none, [], none⟩
  let (hour, rest) ← takeField? 1 2 (← dropClockMark? rest)
  let (minute, rest) ← takeField? 2 2 (← takeMark? ':' rest)
  let (second, rest) ← takeField? 2 2 (← takeMark? ':' rest)
  let (fraction, rest) :=
    match rest with
    | '.' :: rest => (rest.takeWhile isAsciiDigit, rest.dropWhile isAsciiDigit)
    | rest => ([], rest)
  return ⟨year, month, day, some (hour, minute, second), fraction, ← readZone? rest⟩

/-- The spelling of a timestamp. A date alone has two digits for month and day. -/
def isTimestamp (text : List Char) : Bool :=
  match TimestampText.ofText? text with
  | some fields => fields.clock.isSome || (fields.month.length == 2 && fields.day.length == 2)
  | none => false

/-- The text without a line feed at its end. -/
def dropFinalBreak (text : List Char) : List Char :=
  if text.getLast? == some '\n' then text.dropLast else text

/-- The tag that a plain scalar has by its spelling. -/
def Tag.ofPlain (spelling : String) : Tag :=
  let text := dropFinalBreak spelling.toList
  let word := String.ofList text
  if boolWords.contains word then bool
  else if isFloat text then float
  else if isUnsignedInt (dropSign text) then int
  else if word == "<<" then merge
  else if nullWords.contains word && !(spelling == "\n") then null
  else if isTimestamp text then timestamp
  else if word == "=" then value
  else if ["!", "&", "*"].contains word then unknown
  else str

end SlashBot.Yaml

import SlashBot.Value.Basic

/-!
# Keys

Any value without parts of its own can be a key. Numbers are the same key if they
are equal, whatever their kind: true, `1` and `1.0` name one entry. Putting a
value under a key that is present replaces the value and keeps the key and its
place.
-/

namespace SlashBot.Value

open SlashBot.Number

/-- The value of a number as a quotient; truth values count as 0 and 1. -/
def ratio? : Value → Option (Int × Nat)
  | bool truth => some (if truth then 1 else 0, 1)
  | int number => some (number, 1)
  | float number => number.ratio?
  | _ => none

/-- Two values that name the same entry of a map. -/
def sameKey (left right : Value) : Bool :=
  match left, right with
  | null, null => true
  | str text, str text' => text == text'
  | bytes octets, bytes octets' => octets == octets'
  | date day, date day' => day == day'
  | timestamp time, timestamp time' => time.sameMoment time'
  | float .nan, float .nan => true
  | float (.infinite negative), float (.infinite negative') => negative == negative'
  | left, right =>
      match left.ratio?, right.ratio? with
      | some (n, d), some (n', d') => n * d' == n' * d
      | _, _ => false

/-- A value that can be a key: one that does not hold a list, a map or a set. -/
def isKey : Value → Bool
  | list _ | map _ | set _ => false
  | pair first second => first.isKey && second.isKey
  | _ => true

/-- Puts a value under a key. -/
def put (key value : Value) : (entries : List (Value × Value)) → List (Value × Value)
  | [] => [(key, value)]
  | (present, old) :: rest =>
      if present.sameKey key then (present, value) :: rest
      else (present, old) :: put key value rest

/-- The entries that remain when pairs are put one after another. -/
def entriesOf (pairs : List (Value × Value)) : List (Value × Value) :=
  pairs.foldl (fun entries (key, value) => put key value entries) []

end SlashBot.Value

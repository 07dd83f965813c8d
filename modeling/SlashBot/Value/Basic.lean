import SlashBot.Calendar
import SlashBot.Number.Double

/-!
# Values

Configurations, event payloads and replies are trees of values whose shape is not
known in advance. One type covers both formats they come in: JSON gives the first
kinds, YAML all of them. A map keeps its entries in the order of their first
appearance and holds no key twice.
-/

namespace SlashBot

open SlashBot.Number

/-- A value of a configuration, a payload or a reply. -/
inductive Value where
  | null
  | bool (truth : Bool)
  | int (number : Int)
  | float (number : Double)
  | str (text : String)
  | list (items : List Value)
  | map (entries : List (Value × Value))
  | bytes (octets : List UInt8)
  | date (day : Date)
  | timestamp (time : Timestamp)
  | pair (first second : Value)
  | set (items : List Value)

namespace Value

instance : Inhabited Value := ⟨null⟩

/-- The empty map. -/
def emptyMap : Value := map []

/-- The values that count as absent are null, false, the zeros and everything
empty. -/
def truthy : Value → Bool
  | null => false
  | bool truth => truth
  | int number => number != 0
  | float number => !number.isZero
  | str text => text != ""
  | list items => !items.isEmpty
  | map entries => !entries.isEmpty
  | bytes octets => !octets.isEmpty
  | set items => !items.isEmpty
  | date _ | timestamp _ | pair .. => true

/-- The value itself, or the alternative if it counts as absent. -/
def orElse (value alternative : Value) : Value :=
  if value.truthy then value else alternative

/-- The value is null. -/
def isNull : Value → Bool
  | null => true
  | _ => false

/-- The kind of a value, as messages name it. -/
def kindName : Value → String
  | null => "NoneType"
  | bool _ => "bool"
  | int _ => "int"
  | float _ => "float"
  | str _ => "str"
  | list _ => "list"
  | map _ => "dict"
  | bytes _ => "bytes"
  | date _ => "date"
  | timestamp _ => "datetime"
  | pair .. => "tuple"
  | set _ => "set"

/-- The entry of a map under a text key. -/
def field? (entries : List (Value × Value)) (key : String) : Option Value :=
  match entries with
  | [] => none
  | (str text, value) :: rest => if text == key then some value else field? rest key
  | _ :: rest => field? rest key

/-- The entry of a map under a text key, null if it has none. -/
def field (entries : List (Value × Value)) (key : String) : Value :=
  (field? entries key).getD null

end Value

end SlashBot

import SlashBot.Number.Integer
import SlashBot.Value.Display
import SlashBot.Fault

/-!
# Scopes of a template

A key is looked up in a stack of scopes, from the inside outwards. The outermost
scope is the context: the arguments of the command, the same joined to one text,
and the author. A key with points in it walks through the parts of a value.
-/

namespace SlashBot.Template

open SlashBot.Number
open SlashBot.Text

/-- What a template can speak about. -/
structure Context where
  args : List String
  author : Option Value

/-- The arguments joined by single spaces. -/
def Context.input (context : Context) : String :=
  " ".intercalate context.args

/-- A thing that a key can name. The list of arguments is kept apart because it is
written with commas between its items. -/
inductive Scope where
  | context (fields : Context)
  | arguments (args : List String)
  | value (held : Value)

/-- The context as a map. -/
def Context.toValue (context : Context) : Value :=
  .map ([(.str "args", .list (context.args.map .str)), (.str "input", .str context.input)] ++
    (context.author.map fun author => (Value.str "author", author)).toList)

namespace Scope

/-- The empty text. -/
def nothing : Scope := value (.str "")

/-- A scope that counts as absent. -/
def truthy : Scope → Bool
  | context _ => true
  | arguments args => !args.isEmpty
  | value held => held.truthy

/-- The text that a tag prints. -/
def display : Scope → String
  | context fields => fields.toValue.display
  | arguments args => ",".intercalate args
  | value held => held.display

/-- The scopes over which a section repeats, if it does. -/
def items? : Scope → Option (List Scope)
  | arguments args => some (args.map fun arg => value (.str arg))
  | value (.list items) => some (items.map value)
  | _ => none

/-- The item at an index, where negative indices count from the end. -/
def itemAt? {α : Type} (items : List α) (index : Int) : Option α :=
  if index < 0 then
    if index.natAbs ≤ items.length then items[items.length - index.natAbs]? else none
  else items[index.toNat]?

/-- The part of a scope with a name: an entry of a map, or an item or a character
at an index. Other values have no parts, and an index into them is a fault. -/
def part? (scope : Scope) (name : List Char) : Except Fault (Option Scope) :=
  let index? := readInteger? 10 name
  match scope with
  | context fields =>
      match String.ofList name with
      | "args" => .ok (some (arguments fields.args))
      | "input" => .ok (some (value (.str fields.input)))
      | "author" => .ok (fields.author.map value)
      | _ => .ok none
  | arguments args => .ok ((index?.bind (itemAt? args)).map fun arg => value (.str arg))
  | value (.map entries) => .ok ((Value.field? entries (String.ofList name)).map value)
  | value (.list items) => .ok ((index?.bind (itemAt? items)).map value)
  | value (.str text) =>
      .ok ((index?.bind (itemAt? text.toList)).map fun c => value (.str (String.ofList [c])))
  | value _ => if index?.isSome then .error .wrongKind else .ok none

/-- Walks through the parts of a scope. -/
def walk (scope : Scope) : (names : List (List Char)) → Except Fault (Option Scope)
  | [] => .ok (some scope)
  | name :: rest => do
      match ← scope.part? name with
      | some part => part.walk rest
      | none => return none

/-- The scope as a result: zeros and false stay, and whatever else counts as absent
is nothing. -/
def settle : Scope → Scope
  | value (.int n) => value (.int n)
  | value (.bool truth) => value (.bool truth)
  | value (.float number) => value (.float number)
  | scope => if scope.truthy then scope else nothing

/-- The scope that a key names in the stack, or nothing. -/
def search (names : List (List Char)) : (scopes : List Scope) → Except Fault Scope
  | [] => .ok nothing
  | scope :: outer => do
      match ← scope.walk names with
      | some found => return found.settle
      | none => search names outer

/-- The scope that a key names. A point names the innermost scope itself. -/
def lookup (key : List Char) (scopes : List Scope) : Except Fault Scope :=
  match key, scopes with
  | ['.'], scope :: _ => .ok scope
  | key, scopes => search (splitWhere (· == '.') key) scopes

end Scope

end SlashBot.Template

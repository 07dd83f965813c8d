import SlashBot.Fault

/-!
# Records

Payloads and replies are records of the service: maps whose entries are known by
name. There are two ways of asking for an entry. The lenient one passes over an
entry that is missing, and the strict one insists on it; they also differ in the
fault that a value gives that is no record at all.
-/

namespace SlashBot.Value

/-- The entry of a record, null if it is missing. -/
def entry (name : String) : (record : Value) → Except Fault Value
  | map entries => .ok (field entries name)
  | _ => .error .noSuchMember

/-- The entry of a record, which must have it. -/
def member (name : String) : (record : Value) → Except Fault Value
  | map entries =>
      match field? entries name with
      | some value => .ok value
      | none => .error (.missingKey name)
  | _ => .error .wrongKind

/-- The value is the given text. -/
def isText (text : String) : Value → Bool
  | str held => held == text
  | _ => false

end SlashBot.Value

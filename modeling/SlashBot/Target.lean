import SlashBot.Value.Record

/-!
# Targets

The issue or pull request that a comment belongs to. Its fields are taken from the
service as they are; only the lists of labels and assignees have a fixed shape.
-/

namespace SlashBot

/-- An issue or a pull request at the time of a command. -/
structure Target where
  number : Value
  nodeId : Value
  state : Value
  locked : Bool
  lockReason : Value
  labels : List Value
  assignees : List Value
  author : Value

namespace Target

/-- The entry of each record in a list. A field that counts as absent holds none. -/
def members (name : String) (value : Value) : Except Fault (List Value) :=
  if !value.truthy then .ok []
  else
    match value with
    | .list records => records.mapM fun record => record.member name
    | _ => .error .wrongKind

/-- The login of a person, empty if there is none. -/
def login (person : Value) : Except Fault Value :=
  match person.orElse .emptyMap with
  | .map entries => .ok ((Value.field? entries "login").getD (.str ""))
  | _ => .error .noSuchMember

/-- The target that a record of the service describes. -/
def ofRecord (record : Value) : Except Fault Target := do
  let number ← record.member "number"
  match record with
  | .map entries =>
      let labels ← members "name" (Value.field entries "labels")
      let assignees ← members "login" (Value.field entries "assignees")
      let author ← login (Value.field entries "user")
      return {
        number := number
        nodeId := (Value.field entries "node_id").orElse (.str "")
        state := (Value.field entries "state").orElse (.str "open")
        locked := (Value.field entries "locked").truthy
        lockReason := Value.field entries "active_lock_reason"
        labels := labels
        assignees := assignees
        author := author }
  | _ => .error .wrongKind

/-- The target is open. -/
def isOpen (target : Target) : Bool := target.state.isText "open"

/-- The target is closed. -/
def isClosed (target : Target) : Bool := target.state.isText "closed"

end Target

end SlashBot

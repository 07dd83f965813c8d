import SlashBot.LockReason

/-!
# Action sets

The effects that are configured for a command. Lists may be written as a single
value, and labels under two names. An action set in which nothing is configured
does nothing.
-/

namespace SlashBot

/-- The configured effects. -/
structure ActionSet where
  comments : List String := []
  reactions : List String := []
  reopen : Bool := false
  close : Bool := false
  lock : Bool := false
  unlock : Bool := false
  lockReason : Option LockReason := none
  labels : List String := []
  assign : List String := []
  pin : Bool := false
  unpin : Bool := false
  dispatch : Bool := false
  deriving DecidableEq, Repr

/-- The reactions that a comment can have. -/
def reactionNames : List String :=
  ["+1", "-1", "laugh", "confused", "heart", "hooray", "rocket", "eyes"]

namespace ActionSet

/-- No effect is configured. -/
def isEmpty (actions : ActionSet) : Bool :=
  actions == {}

/-- The items of a field that holds a value or a list of values. -/
def itemsOf : (value : Value) → List Value
  | .null => []
  | .list items => items
  | .pair first second => [first, second]
  | value => [value]

/-- A value that cannot be an item of a field. -/
def isNested : (item : Value) → Bool
  | .map _ | .list _ => true
  | _ => false

/-- The texts of a field. An item that cannot be one is shown in the fault. -/
def texts (field : String) (value : Value) : Except Fault (List String) :=
  let items := itemsOf value
  match items.find? isNested with
  | some item => do
      let _ ← item.shown
      .error (.invalidField field item)
  | none => items.mapM Value.shown

/-- The texts that a map holds in a field. -/
def textsIn (entries : List (Value × Value)) (field : String) : Except Fault (List String) :=
  texts field (Value.field entries field)

/-- The action set that a map configures. Of several mistakes the first in the
order of the fields counts. -/
def ofEntries (entries : List (Value × Value)) : Except Fault ActionSet := do
  let flag (name : String) : Bool := (Value.field entries name).truthy
  let comments ← textsIn entries "comment"
  let reactions ← textsIn entries "reactions"
  let lockReason ← LockReason.ofValue (Value.field entries "lockReason")
  let label ← textsIn entries "label"
  let labels ← textsIn entries "labels"
  let assign ← textsIn entries "assign"
  return {
    comments := comments
    reactions := reactions
    reopen := flag "open"
    close := flag "close"
    lock := flag "lock"
    unlock := flag "unlock"
    lockReason := lockReason
    labels := label ++ labels
    assign := assign
    pin := flag "pin"
    unpin := flag "unpin"
    dispatch := flag "dispatch" }

/-- The action set that a value configures. A value that counts as absent configures
nothing. -/
def ofValue (raw : Value) : Except Fault ActionSet :=
  if !raw.truthy then .ok {}
  else
    match raw with
    | .map entries => ofEntries entries
    | raw => .error (.actionsNotMap raw.kindName)

/-- One of the comments, chosen by a number that may be drawn at random. -/
def pickComment? (draw : Int) (comments : List String) : Option String :=
  comments[(draw.emod comments.length).toNat]?

end ActionSet

end SlashBot

import SlashBot.ActionSet
import SlashBot.Api.Client
import SlashBot.Command
import SlashBot.Specifier
import SlashBot.Target

/-!
# Invocations

An invocation is one command on one issue or pull request. Applying an action set
takes the effects in a fixed order: pins, the comment with its reactions, the
state, the lock, labels, people, and the dispatch. What is done depends on the
target as it was before, and the first fault ends the work.
-/

namespace SlashBot

open SlashBot.Template

/-- A command on a target, with the context whose section configures it, the person
who sent it, and a number drawn for the choice of a comment. -/
structure Invocation where
  command : Command
  target : Target
  context : String
  sender : Value
  draw : Int

namespace Invocation

/-- The number of the target as log lines show it. -/
def shownNumber (invocation : Invocation) : String :=
  "#" ++ invocation.target.number.display

/-- What the specifiers of an action set can speak about. -/
def arguments (invocation : Invocation) : Context :=
  ⟨invocation.command.args, none⟩

/-- What the comments of an action set can speak about: the arguments, and the
author unless it is null. -/
def commentContext (invocation : Invocation) : Context :=
  let author := invocation.target.author
  ⟨invocation.command.args, if author.isNull then none else some author⟩

/-- Texts that were expected in a list. -/
def textsOf (values : List Value) : Except Fault (List String) :=
  values.mapM fun value =>
    match value with
    | .str text => .ok text
    | _ => .error .wrongKind

/-- Brings about an effect if it is wanted: says so, does the work and records it. -/
def bring (effect : Effect) (wanted : Bool) (icon message : String) (work : Job Unit) :
    Job Unit := do
  if wanted then
    Job.tell (.note icon message)
    work
    Job.apply effect

/-- Pins or unpins the target. -/
def applyPins (invocation : Invocation) (client : Client) (actions : ActionSet) : Job Unit := do
  let node := invocation.target.nodeId
  bring .pin actions.pin "📌" ("Pinning " ++ invocation.shownNumber) (client.query (.pin node))
  bring .unpin actions.unpin "📌" ("Unpinning " ++ invocation.shownNumber)
    (client.query (.unpin node))

/-- Does work on the target while it is unlocked. A target that was locked is locked
again with the same reason, unless the work fails. -/
def whileUnlocked (invocation : Invocation) (client : Client) (work : Job Unit) : Job Unit := do
  let target := invocation.target
  if target.locked then
    client.order (.unlock target.number)
    work
    client.order (.lock target.number target.lockReason)
  else work

/-- Adds a reaction to a comment. A reaction that does not exist is left out. -/
def react (client : Client) (comment : Value) (name : String) : Job Unit := do
  if reactionNames.contains name then
    client.order (.addReaction comment name)
    Job.apply (.reaction name)
  else Job.tell (.warning ("Unknown reaction \"" ++ name ++ "\", skipped"))

/-- Creates a comment and adds reactions to it. -/
def comment (invocation : Invocation) (client : Client) (text : String)
    (reactions : List String) : Job Unit := do
  let id ← client.createComment invocation.target.number text
  Job.apply .comment
  reactions.forM (react client id)

/-- Comments on the target with one of the configured comments. -/
def applyComment (invocation : Invocation) (client : Client) (actions : ActionSet) :
    Job Unit := do
  match ActionSet.pickComment? invocation.draw actions.comments with
  | none => return
  | some template =>
      let text ← render template invocation.commentContext
      Job.tell (.note "💬" ("Commenting on " ++ invocation.shownNumber))
      invocation.whileUnlocked client (invocation.comment client text actions.reactions)

/-- Opens a closed target or closes an open one. -/
def applyState (invocation : Invocation) (client : Client) (actions : ActionSet) : Job Unit := do
  let target := invocation.target
  bring .reopen (actions.reopen && target.isClosed) "🔓" ("Reopening " ++ invocation.shownNumber)
    (client.order (.setState target.number "open"))
  bring .close (actions.close && target.isOpen) "🔒" ("Closing " ++ invocation.shownNumber)
    (client.order (.setState target.number "closed"))

/-- The configured reason of a lock as a log line shows it. -/
def shownReason : (reason : Option LockReason) → String
  | some reason => " (" ++ reason.text ++ ")"
  | none => ""

/-- The configured reason of a lock as the service takes it. -/
def sentReason : (reason : Option LockReason) → Value
  | some reason => .str reason.text
  | none => .null

/-- Locks an unlocked target or unlocks a locked one. -/
def applyLock (invocation : Invocation) (client : Client) (actions : ActionSet) : Job Unit := do
  let target := invocation.target
  bring .lock (actions.lock && !target.locked) "🔒"
    ("Locking " ++ invocation.shownNumber ++ shownReason actions.lockReason)
    (client.order (.lock target.number (sentReason actions.lockReason)))
  bring .unlock (actions.unlock && target.locked) "🔓" ("Unlocking " ++ invocation.shownNumber)
    (client.order (.unlock target.number))

/-- Adds labels, if there are any to add. -/
def addLabels (invocation : Invocation) (client : Client) (names : List String) : Job Unit :=
  bring .addLabels (!names.isEmpty) "🏷️"
    ("Adding labels to " ++ invocation.shownNumber ++ ": " ++ ", ".intercalate names)
    (client.order (.addLabels invocation.target.number names))

/-- Removes labels. All removals are sent before the first failure among them counts. -/
def removeEach (invocation : Invocation) (client : Client) (names : List String) :
    Job Unit := do
  let outcomes ← names.mapM fun name =>
    (client.order (.removeLabel invocation.target.number name)).attempt
  outcomes.forM Job.ofExcept

/-- Removes each label once, if there are any to remove. -/
def removeLabels (invocation : Invocation) (client : Client) (values : List Value) :
    Job Unit := do
  let names := (← textsOf values).eraseDups
  bring .removeLabels (!names.isEmpty) "🏷️"
    ("Removing labels from " ++ invocation.shownNumber ++ ": " ++ ", ".intercalate names)
    (invocation.removeEach client names)

/-- Adds and removes labels as the specifiers ask. -/
def applyLabels (invocation : Invocation) (client : Client) (actions : ActionSet) : Job Unit := do
  let changes ← Changes.ofSpecifiers actions.labels invocation.arguments false
  invocation.addLabels client changes.add
  invocation.removeLabels client (resolveRemovals changes.remove invocation.target.labels)

/-- Unassigns people, if there are any to unassign. -/
def unassign (invocation : Invocation) (client : Client) (values : List Value) : Job Unit := do
  let names ← textsOf values
  bring .removeAssignees (!names.isEmpty) "👤"
    ("Unassigning from " ++ invocation.shownNumber ++ ": " ++ ", ".intercalate names)
    (client.order (.removeAssignees invocation.target.number names))

/-- Assigns people, if there are any to assign. -/
def assign (invocation : Invocation) (client : Client) (names : List String) : Job Unit :=
  bring .addAssignees (!names.isEmpty) "👤"
    ("Assigning " ++ invocation.shownNumber ++ " to " ++ ", ".intercalate names)
    (client.order (.addAssignees invocation.target.number names))

/-- Unassigns and assigns people as the specifiers ask. -/
def applyPeople (invocation : Invocation) (client : Client) (actions : ActionSet) : Job Unit := do
  let changes ← Changes.ofSpecifiers actions.assign invocation.arguments true
  invocation.unassign client (resolveRemovals changes.remove invocation.target.assignees)
  invocation.assign client changes.add

/-- What a dispatched event tells about the invocation. -/
def payload (invocation : Invocation) : Value :=
  .map [(.str "command", .str invocation.command.name),
    (.str "args", Call.textList invocation.command.args),
    (.str "input", .str invocation.command.input),
    (.str "number", invocation.target.number),
    (.str "author", invocation.target.author),
    (.str "sender", invocation.sender)]

/-- Dispatches an event with the name of the command. -/
def applyDispatch (invocation : Invocation) (client : Client) (actions : ActionSet) :
    Job Unit :=
  let name := invocation.command.name
  bring .dispatch actions.dispatch "🚀" ("Dispatching repository event \"" ++ name ++ "\"")
    (client.order (.dispatch name invocation.payload))

/-- Applies an action set to the target of the invocation. -/
def apply (invocation : Invocation) (client : Client) (actions : ActionSet) : Job Unit := do
  if actions.isEmpty then
    Job.tell
      (.detail
        ("No actions configured for /" ++ invocation.command.name ++ " (" ++ invocation.context ++
          ")"))
  else
    invocation.applyPins client actions
    invocation.applyComment client actions
    invocation.applyState client actions
    invocation.applyLock client actions
    invocation.applyLabels client actions
    invocation.applyPeople client actions
    invocation.applyDispatch client actions

end Invocation

end SlashBot

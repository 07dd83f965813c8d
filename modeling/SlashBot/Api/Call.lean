import SlashBot.Text.Percent
import SlashBot.Value.Display

/-!
# Calls

What the bot asks of the service: to read a file or an issue, and to change one.
A call determines the method, the place and the body of its request; only where
the service is, and for which repository, is left open. Numbers and node ids are
passed on as the service gave them.
-/

namespace SlashBot

open SlashBot.Text

/-- The methods that requests use. -/
inductive Method where
  | get
  | post
  | put
  | patch
  | delete
  deriving DecidableEq, Repr

/-- The name of a method. -/
def Method.name : Method → String
  | get => "GET"
  | post => "POST"
  | put => "PUT"
  | patch => "PATCH"
  | delete => "DELETE"

/-- A method that changes nothing. -/
def Method.isSafe : Method → Bool
  | get => true
  | _ => false

/-- Something that is asked of the service. -/
inductive Call where
  | fetchFile (path : String)
  | fetchIssue (number : Value)
  | createComment (number : Value) (text : String)
  | addReaction (comment : Value) (name : String)
  | setState (number : Value) (state : String)
  | lock (number reason : Value)
  | unlock (number : Value)
  | addLabels (number : Value) (names : List String)
  | removeLabel (number : Value) (name : String)
  | addAssignees (number : Value) (names : List String)
  | removeAssignees (number : Value) (names : List String)
  | pin (node : Value)
  | unpin (node : Value)
  | dispatch (event : String) (payload : Value)

namespace Call

/-- The query that pins an issue. -/
def pinQuery : String :=
  "\nmutation PinIssue($input: PinIssueInput!) \x7b\n    pinIssue(input: $input) \x7b\n" ++
    "        issue \x7b\n            title\n        \x7d\n    \x7d\n\x7d\n"

/-- The query that unpins an issue. -/
def unpinQuery : String :=
  "\nmutation UnpinIssue($input: UnpinIssueInput!) \x7b\n    unpinIssue(input: $input) \x7b\n" ++
    "        issue \x7b\n            title\n        \x7d\n    \x7d\n\x7d\n"

/-- The method of a call. -/
def method : Call → Method
  | fetchFile _ | fetchIssue _ => .get
  | setState .. => .patch
  | lock .. => .put
  | unlock _ | removeLabel .. | removeAssignees .. => .delete
  | createComment .. | addReaction .. | addLabels .. | addAssignees .. | pin _ | unpin _
  | dispatch .. => .post

/-- Where a call is sent: to a place in the repository, or to the endpoint for
queries. -/
inductive Place where
  | repository (path : String)
  | queries
  deriving DecidableEq, Repr

/-- The place of an issue, with the rest of a path behind it. -/
def issuePath (number : Value) (rest : String) : String :=
  "/issues/" ++ number.display ++ rest

/-- The path of a file, which starts without slashes. -/
def filePath (path : String) : String :=
  "/contents/" ++ String.ofList (path.toList.dropWhile (· == '/'))

/-- The place of a call. The name of a label is one segment of its path. -/
def place : Call → Place
  | fetchFile path => .repository (filePath path)
  | fetchIssue number | setState number _ => .repository (issuePath number "")
  | createComment number _ => .repository (issuePath number "/comments")
  | addReaction comment _ =>
      .repository ("/issues/comments/" ++ comment.display ++ "/reactions")
  | lock number _ | unlock number => .repository (issuePath number "/lock")
  | addLabels number _ => .repository (issuePath number "/labels")
  | removeLabel number name =>
      .repository
        (issuePath number ("/labels/" ++ String.ofList (percentComponent name.toList)))
  | addAssignees number _ | removeAssignees number _ =>
      .repository (issuePath number "/assignees")
  | pin _ | unpin _ => .queries
  | dispatch .. => .repository "/dispatches"

/-- A map with one entry. -/
def single (key : String) (value : Value) : Value :=
  .map [(.str key, value)]

/-- The texts as a list. -/
def textList (texts : List String) : Value :=
  .list (texts.map .str)

/-- The body of a query about a node. -/
def queryBody (query : String) (node : Value) : Value :=
  .map [(.str "query", .str query),
    (.str "variables", single "input" (single "issueId" node))]

/-- The body of a call, if it has one. A lock without a reason has none. -/
def body : Call → Option Value
  | fetchFile _ | fetchIssue _ | unlock _ | removeLabel .. => none
  | createComment _ text => some (single "body" (.str text))
  | addReaction _ name => some (single "content" (.str name))
  | setState _ state => some (single "state" (.str state))
  | lock _ reason => if reason.truthy then some (single "lock_reason" reason) else none
  | addLabels _ names => some (single "labels" (textList names))
  | addAssignees _ names | removeAssignees _ names => some (single "assignees" (textList names))
  | pin node => some (queryBody pinQuery node)
  | unpin node => some (queryBody unpinQuery node)
  | dispatch event payload =>
      some (.map [(.str "event_type", .str event), (.str "client_payload", payload)])

end Call

end SlashBot

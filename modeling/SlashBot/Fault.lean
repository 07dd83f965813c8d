import SlashBot.Value.Display

/-!
# Faults

Everything that can end a piece of work early, by its cause. A fault has a kind,
and some kinds have a message; where a log line quotes a fault without a message,
it shows the kind in angle brackets.
-/

namespace SlashBot

/-- A mistake in the tags of a template, with the line that is blamed for it. -/
inductive TagFault where
  | unclosed (line : Nat)
  | unclosedDelimiters (line : Nat)
  | notOpened (key : String) (line : Nat)
  | mismatched (key last : String) (line : Nat)
  | neverClosed (key : String) (line : Option Nat)
  deriving DecidableEq, Repr

/-- What was asked of the service when it refused. -/
inductive Refused where
  | call (method path : String)
  | file (path : String)
  | query
  deriving DecidableEq, Repr

/-- The cause of an early end. -/
inductive Fault where
  | malformedConfig
  | actionsNotMap (kind : String)
  | invalidField (field : String) (value : Value)
  | invalidLockReason (value : Value)
  | refused (what : Refused) (status : Nat) (text : String)
  | queryErrors (errors : Value)
  | template (cause : TagFault)
  | missingKey (key : String)
  | missingToken
  | noSuchMember
  | wrongKind
  | outOfRange
  | badValue
  | tooLarge
  | malformedJson
  | malformedText
  | incompleteBase64
  | unreachable
  | invalidUrl

/-- The wording of a mistake in a template. -/
def TagFault.message : TagFault → String
  | unclosed line => s!"unclosed tag at line {line}"
  | unclosedDelimiters line => s!"unclosed set delimiter tag\nat line {line}"
  | notOpened key line =>
      s!"Trying to close tag \"{key}\"\nLooks like it was not opened.\nline {line}"
  | mismatched key last line =>
      s!"Trying to close tag \"{key}\"\nlast open tag is \"{last}\"\nline {line}"
  | neverClosed key line =>
      let shown := (line.map toString).getD "None"
      s!"Unexpected EOF\nthe tag \"{key}\" was never closed\nwas opened at line {shown}"

namespace Fault

/-- The kind of a fault. -/
def kind : Fault → String
  | malformedConfig | actionsNotMap _ | invalidField .. | invalidLockReason _ => "ConfigError"
  | refused .. | queryErrors _ => "GitHubError"
  | template _ => "ChevronError"
  | missingKey _ => "KeyError"
  | missingToken | badValue => "ValueError"
  | noSuchMember => "AttributeError"
  | wrongKind => "TypeError"
  | outOfRange => "IndexError"
  | tooLarge => "OverflowError"
  | malformedJson => "JSONDecodeError"
  | malformedText => "UnicodeDecodeError"
  | incompleteBase64 => "Error"
  | unreachable => "ConnectError"
  | invalidUrl => "InvalidURL"

/-- The message of a fault, if its kind has one. -/
def message? : Fault → Option String
  | malformedConfig => some "Invalid command config"
  | actionsNotMap kind => some s!"Command actions must be a mapping, got {kind}"
  | invalidField field value => some (s!"Invalid value for '{field}': " ++ value.literal)
  | invalidLockReason value => some ("Invalid lockReason: " ++ value.literal)
  | refused (.call method path) status text =>
      some s!"GitHub API error: {method} {path} returned {status}: {text}"
  | refused (.file path) status text =>
      some s!"GitHub API error: fetching {path} returned {status}: {text}"
  | refused .query status text => some s!"GitHub GraphQL error: {status}: {text}"
  | queryErrors errors => some ("GitHub GraphQL error: " ++ errors.display)
  | template cause => some cause.message
  | missingKey key => some (Value.quotedText key)
  | missingToken => some "GITHUB_TOKEN environment variable is not set"
  | _ => none

/-- The status that the service answered with, if it did. -/
def status? : Fault → Option Nat
  | refused _ status _ => some status
  | _ => none

/-- A refusal of the service, whether or not it came with a status. -/
def isRefusal : Fault → Bool
  | refused .. | queryErrors _ => true
  | _ => false

/-- A mistake in the configuration. -/
def isConfigFault : Fault → Bool
  | malformedConfig | actionsNotMap _ | invalidField .. | invalidLockReason _ => true
  | _ => false

/-- The fault as a log line quotes it. -/
def describe (fault : Fault) : String :=
  fault.message?.getD ("<" ++ fault.kind ++ ">")

end Fault

/-- The value as plain text, if it can be written down. -/
def Value.shown (value : Value) : Except Fault String :=
  if value.isWritable then .ok value.display else .error .badValue

end SlashBot

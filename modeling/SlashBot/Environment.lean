/-!
# Environment

The variables that the bot is started with. An empty variable is set, but most
settings treat it as if it were not.
-/

namespace SlashBot

/-- The variables that are set. -/
abbrev Environment := List (String × String)

namespace Environment

/-- The variables that settings are taken from. -/
def names : List String :=
  ["GITHUB_TOKEN", "INPUT_GITHUB_TOKEN", "INPUT_CONFIG_FILE", "CONFIG_FILE", "GITHUB_EVENT_NAME",
    "GITHUB_EVENT_PATH", "GITHUB_REPOSITORY", "GITHUB_OUTPUT", "GITHUB_WEBHOOK_SECRET",
    "GITHUB_API_URL", "GITHUB_GRAPHQL_URL", "TRIGGER_CHAR", "RUNNER_DEBUG", "DEBUG", "TERM"]

/-- The value of a variable, if it is set. -/
def get? (environment : Environment) (name : String) : Option String :=
  environment.lookup name

/-- The value of a variable, if it is set and not empty. -/
def nonempty? (environment : Environment) (name : String) : Option String :=
  (environment.get? name).filter (· != "")

/-- The text that marks a comment as a command. -/
def trigger (environment : Environment) : String :=
  (environment.get? "TRIGGER_CHAR").getD "/"

end Environment

end SlashBot

import ChainClient.Config.EnvFile
import ChainClient.Config.Variables

/-! Settings read from variables, from an environment, and from a
file that is loaded into it. -/

namespace ChainClient

inductive ConfigError where
  | variable (cause : VariableError)
  | file (cause : EnvFile.EnvFileError)
  | settings (cause : SettingsError)
  deriving DecidableEq, Repr

def ConfigError.name : ConfigError → String
  | .variable _ => "EnvError"
  | .file _ => "DotenvError"
  | .settings _ => "ValidateError"

def ConfigError.message? : ConfigError → Option String
  | .variable cause =>
      some ("Failed to load configuration from environment: " ++ cause.message)
  | .file cause => cause.message?.map ("Failed to load env file: " ++ ·)
  | .settings cause => some ("Invalid configuration: " ++ cause.message)

namespace Config

def ofVariables (entries : List (String × String)) : Except ConfigError Config := do
  let given ← (Given.ofVariables entries).mapError .variable
  given.config.check.mapError .settings
  return given.config

/-- Loads a file into an environment, then reads the settings from there.  A file that
does not exist is passed over. -/
def ofFile (environment : Environment) (file? : Option DirectoryEntry) :
    Environment × Except ConfigError Config :=
  match EnvFile.load environment file? with
  | (environment, .error cause) => (environment, .error (.file cause))
  | (environment, .ok ()) => (environment, ofVariables environment)

end Config

end ChainClient

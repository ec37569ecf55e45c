import ChainClient.Config.Basic
import ChainClient.Text.Numeral

/-! Settings given as named variables, such as those of a process environment. -/

namespace ChainClient

/-- What a variable can set. -/
inductive Setting where
  | url
  | logLevel
  | logJson
  | logStripAnsi
  | logWrite
  | logWritePath
  | logWriteMaxFileSize
  | logWriteMaxFiles
  | cachePath
  | cacheInMemory
  | secret
  deriving DecidableEq, Repr

inductive VariableCause where
  | flag
  | numeral (cause : Text.NumeralError)
  deriving DecidableEq, Repr

def VariableCause.message : VariableCause → String
  | .flag => "provided string was not `true` or `false`"
  | .numeral cause => cause.message

inductive VariableError where
  | repeated (setting : Setting)
  | invalid (cause : VariableCause) (value : String) (name : String)
  deriving DecidableEq, Repr

namespace Setting

def all : List Setting :=
  [.url, .logLevel, .logJson, .logStripAnsi, .logWrite, .logWritePath, .logWriteMaxFileSize,
    .logWriteMaxFiles, .cachePath, .cacheInMemory, .secret]

def name : Setting → String
  | .url => "substrate_url"
  | .logLevel => "log_level"
  | .logJson => "log_json"
  | .logStripAnsi => "log_strip_ansi"
  | .logWrite => "log_write"
  | .logWritePath => "log_write_path"
  | .logWriteMaxFileSize => "log_write_max_file_size"
  | .logWriteMaxFiles => "log_write_max_files"
  | .cachePath => "cache_path"
  | .cacheInMemory => "cache_in_memory"
  | .secret => "account_secret"

def ofName? (name : String) : Option Setting :=
  all.find? fun setting => setting.name = name

end Setting

def VariableError.message : VariableError → String
  | .repeated setting => "duplicate field `" ++ setting.name ++ "`"
  | .invalid cause value name =>
      cause.message ++ " while parsing value '" ++ value ++ "' provided by " ++ name

/-! Variables of this program start with a mark, which may be repeated.  The rest names a
setting in upper or lower case. -/

namespace Variable

/-- What follows the marks in front of a name, if there are any. -/
def stripMark? : List Char → Option (List Char)
  | 'D' :: 'O' :: 'T' :: 'S' :: '_' :: rest => some ((stripMark? rest).getD rest)
  | _ => none

def setting? (name : List Char) : Option Setting :=
  Setting.ofName? (String.ofList (name.map Char.toLower))

end Variable

/-- Values of settings, each setting at most once. -/
abbrev Given := List (Setting × String)

namespace Setting

def parseFlag? : String → Option Bool
  | "true" => some true
  | "false" => some false
  | _ => none

def parseSize (value : String) : Except Text.NumeralError Nat :=
  Text.parseNatural (2 ^ 64) value.toList

/-- Whether a text is a value of the setting. -/
def checkValue (setting : Setting) (value : String) : Except VariableCause Unit :=
  match setting with
  | .logJson | .logStripAnsi | .logWrite | .cacheInMemory =>
      if (parseFlag? value).isSome then .ok () else .error .flag
  | .logWriteMaxFileSize | .logWriteMaxFiles =>
      match parseSize value with
      | .ok _ => .ok ()
      | .error cause => .error (.numeral cause)
  | .url | .logLevel | .logWritePath | .cachePath | .secret => .ok ()

end Setting

namespace Given

/-- Takes a variable in, if it names a setting. -/
def add (given : Given) (entry : String × String) : Except VariableError Given :=
  let (name, value) := entry
  match Variable.stripMark? name.toList with
  | none => .ok given
  | some name =>
      match Variable.setting? name with
      | none => .ok given
      | some setting =>
          if (given.lookup setting).isSome then .error (.repeated setting)
          else
            match setting.checkValue value with
            | .error cause => .error (.invalid cause value (String.ofList name))
            | .ok () => .ok ((setting, value) :: given)

def ofVariables (entries : List (String × String)) : Except VariableError Given :=
  entries.foldlM add []

def text (given : Given) (setting : Setting) (default : String) : String :=
  (given.lookup setting).getD default

def flag (given : Given) (setting : Setting) (default : Bool) : Bool :=
  ((given.lookup setting).bind Setting.parseFlag?).getD default

def size (given : Given) (setting : Setting) (default : Nat) : Nat :=
  ((given.lookup setting).bind fun value => (Setting.parseSize value).toOption).getD default

/-- The default settings, changed by those given.  An empty secret is none. -/
def config (given : Given) : Config where
  url := given.text .url Config.default.url
  log := {
    level := given.text .logLevel Config.default.log.level
    json := given.flag .logJson Config.default.log.json
    stripAnsi := given.flag .logStripAnsi Config.default.log.stripAnsi
    write := given.flag .logWrite Config.default.log.write
    writePath := given.text .logWritePath Config.default.log.writePath
    writeMaxFileSize := given.size .logWriteMaxFileSize Config.default.log.writeMaxFileSize
    writeMaxFiles := given.size .logWriteMaxFiles Config.default.log.writeMaxFiles }
  cache := {
    path := given.text .cachePath Config.default.cache.path
    inMemory := given.flag .cacheInMemory Config.default.cache.inMemory }
  secret? := (given.lookup .secret).filter (· ≠ "")

end Given

end ChainClient

import ChainClient.Url

/-! Settings of the client, and the rules that they keep. -/

namespace ChainClient

structure LogSettings where
  level : String
  json : Bool
  stripAnsi : Bool
  write : Bool
  writePath : String
  /-- In bytes. -/
  writeMaxFileSize : Nat
  writeMaxFiles : Nat
  deriving DecidableEq, Repr

structure CacheSettings where
  path : String
  inMemory : Bool
  deriving DecidableEq, Repr

structure Config where
  url : String
  log : LogSettings
  cache : CacheSettings
  /-- The seed of the signing account.  None stands for the development account. -/
  secret? : Option String
  deriving DecidableEq, Repr

inductive SettingsError where
  | emptyUrl
  | url (text : String) (cause : UrlError)
  | scheme (found : String)
  | logLevel (level : String)
  | emptyWritePath
  | zeroFileSize
  | emptyCachePath
  deriving DecidableEq, Repr

def logLevels : List String := ["trace", "debug", "info", "warn", "error"]

def SettingsError.message : SettingsError → String
  | .emptyUrl => "Substrate URL cannot be empty"
  | .url text cause => "Invalid URL '" ++ text ++ "': " ++ cause.message
  | .scheme found => "Invalid URL scheme '" ++ found ++ "'. Must be ws:// or wss://"
  | .logLevel level =>
      "Invalid log level '" ++ level ++ "'. Must be one of: " ++
        String.intercalate ", " logLevels
  | .emptyWritePath => "Log write path cannot be empty when file logging is enabled"
  | .zeroFileSize => "Log max file size must be greater than 0"
  | .emptyCachePath => "Cache path cannot be empty unless the cache is in memory"

namespace Config

protected def default : Config where
  url := "wss://westend-rpc.polkadot.io"
  log := {
    level := "info"
    json := false
    stripAnsi := false
    write := false
    writePath := "./logs"
    writeMaxFileSize := 5 * 2 ^ 20
    writeMaxFiles := 5 }
  cache := { path := "./.dots-cache", inMemory := false }
  secret? := none

/-! A node is spoken to over a web socket. -/

def checkUrl (url : String) : Except SettingsError Unit :=
  if url = "" then .error .emptyUrl
  else
    match Url.scheme url with
    | .error cause => .error (.url url cause)
    | .ok scheme =>
        if scheme = "ws" ∨ scheme = "wss" then .ok () else .error (.scheme scheme)

def checkLog (log : LogSettings) : Except SettingsError Unit :=
  if log.level ∉ logLevels then .error (.logLevel log.level)
  else if log.write ∧ log.writePath = "" then .error .emptyWritePath
  else if log.write ∧ log.writeMaxFileSize = 0 then .error .zeroFileSize
  else .ok ()

def checkCache (cache : CacheSettings) : Except SettingsError Unit :=
  if !cache.inMemory ∧ cache.path = "" then .error .emptyCachePath else .ok ()

def check (config : Config) : Except SettingsError Unit := do
  checkUrl config.url
  checkLog config.log
  checkCache config.cache

end Config

end ChainClient

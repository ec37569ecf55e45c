import ChainClient.Client
import ChainClient.Config.File
import ChainClient.Inspection
import ChainClient.Metadata.Convert

/-! The command line.  It reads its arguments and settings, and shows what it finds
on the chain that they name. -/

namespace ChainClient.CommandLine

def usage : List String :=
  ["Usage: chain-client [OPTIONS]",
    "",
    "Options:",
    "  -e, --env-file <ENV_FILE>  File of settings [default: .env]",
    "  -p, --pallet <PALLET>      Pallet to read from (e.g., System)",
    "  -i, --item <ITEM>          Storage item of the pallet (e.g., Number or Account)",
    "  -k, --key <KEY>            Key of a map: 0x-prefixed hex, an SS58 address, a number",
    "                             or a JSON array or object for composite keys",
    "  -h, --help                 Print help",
    "  -V, --version              Print version"]

def fail (message : String) (code : UInt32) : IO UInt32 := do
  IO.eprintln ("Error: " ++ message)
  return code

/-- The variables of this process. -/
def environment : IO Environment := do
  let some content := String.fromUTF8? (← IO.FS.readBinFile "/proc/self/environ")
    | throw (IO.userError "The environment is not valid Unicode")
  return (content.splitOn "\x00").filterMap Environment.ofEntry?

/-- What a path names, if it names anything. -/
def entry? (path : String) : IO (Option DirectoryEntry) := do
  try
    return some (.file (← IO.FS.readBinFile path).toList)
  catch
    | .noFileOrDirectory .. => return none
    | _ => return some .directory

/-- Prepares the directory that metadata is kept in. -/
def prepareCache (settings : CacheSettings) : IO (Except CacheError Unit) := do
  if settings.inMemory then return .ok ()
  try
    IO.FS.createDirAll settings.path
    return .ok ()
  catch _ => return .error .io

/-- Inspects the chain without a link to it, which is all that a
process without a network can do. -/
def inspectOffline (config : Config) (arguments : Arguments) : Option Inspection :=
  let program := Inspection.run config (fun _ _ => Vector.replicate 64 0) arguments
  let events : List (Event Inspection) :=
    [.start 0 program, .poll 0 [], .dialled 0 none, .poll 0 []]
  let (client, _) := (Client.new (.detached .emptyMemory)).run parseMetadata events
  (client.jobs.lookup 0).bind Job.outcome?

def inspect (arguments : Arguments) : IO UInt32 := do
  let (_, outcome) := Config.ofFile (← environment) (← entry? arguments.envFile)
  match outcome with
  | .error cause => fail (cause.message?.getD cause.name) 1
  | .ok config =>
      match ← prepareCache config.cache with
      | .error cause => fail ("Failed to open metadata cache: " ++ cause.message) 1
      | .ok () =>
          match inspectOffline config arguments with
          | none => fail "Connection closed" 1
          | some inspection =>
              inspection.lines.forM (IO.println ·)
              match inspection.failure? with
              | none => return 0
              | some cause => fail cause.message 1

def run (arguments : List String) : IO UInt32 := do
  match Arguments.parse arguments with
  | .ok arguments => inspect arguments
  | .error .help => do
      usage.forM (IO.println ·)
      return 0
  | .error .version => do
      IO.println "chain-client 0.1.0"
      return 0
  | .error cause => fail cause.name 2

end ChainClient.CommandLine

def main (arguments : List String) : IO UInt32 :=
  ChainClient.CommandLine.run arguments

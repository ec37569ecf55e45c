/-! Arguments of the command line. -/

namespace ChainClient

inductive ArgumentError where
  | unknown
  | missingValue
  | unexpectedValue
  | repeated
  | missingRequired
  | help
  | version
  deriving DecidableEq, Repr

def ArgumentError.name : ArgumentError → String
  | .unknown => "UnknownArgument"
  | .missingValue => "InvalidValue"
  | .unexpectedValue => "TooManyValues"
  | .repeated => "ArgumentConflict"
  | .missingRequired => "MissingRequiredArgument"
  | .help => "DisplayHelp"
  | .version => "DisplayVersion"

/-- Options, each of which takes one value. -/
inductive ValueOption where
  | envFile
  | pallet
  | item
  | key
  deriving DecidableEq, Repr

inductive Flag where
  | help
  | version
  deriving DecidableEq, Repr

inductive Switch where
  | option (option : ValueOption)
  | flag (flag : Flag)
  deriving DecidableEq, Repr

def Switch.ofName? : String → Option Switch
  | "env-file" => some (.option .envFile)
  | "pallet" => some (.option .pallet)
  | "item" => some (.option .item)
  | "key" => some (.option .key)
  | "help" => some (.flag .help)
  | "version" => some (.flag .version)
  | _ => none

def Switch.ofLetter? : Char → Option Switch
  | 'e' => some (.option .envFile)
  | 'p' => some (.option .pallet)
  | 'i' => some (.option .item)
  | 'k' => some (.option .key)
  | 'h' => some (.flag .help)
  | 'V' => some (.flag .version)
  | _ => none

def Flag.request : Flag → ArgumentError
  | .help => .help
  | .version => .version

/-- Where to find the settings, and what to read from storage. -/
structure Arguments where
  envFile : String
  pallet? : Option String
  item? : Option String
  key? : Option String
  deriving DecidableEq, Repr

namespace Arguments

/-- The last option on the way, with its value once there is one.  It is set when the next
option comes or the arguments end. -/
structure Pending where
  option : ValueOption
  value? : Option String
  deriving DecidableEq, Repr

structure Parsing where
  values : List (ValueOption × String)
  pending? : Option Pending
  deriving DecidableEq, Repr

namespace Parsing

def start : Parsing := ⟨[], none⟩

/-- Sets an option, which must not be set yet. -/
def set (parsing : Parsing) (option : ValueOption) (value : String) :
    Except ArgumentError Parsing :=
  if (parsing.values.lookup option).isSome then .error .repeated
  else .ok { parsing with values := (option, value) :: parsing.values }

def settle (parsing : Parsing) : Except ArgumentError Parsing :=
  match parsing.pending? with
  | none => .ok parsing
  | some ⟨_, none⟩ => .error .missingValue
  | some ⟨option, some value⟩ => set { parsing with pending? := none } option value

def takeOption (parsing : Parsing) (option : ValueOption) (attached? : Option String) :
    Except ArgumentError Parsing := do
  let parsing ← parsing.settle
  match attached? with
  | some value => parsing.set option value
  | none => return { parsing with pending? := some ⟨option, none⟩ }

def takeFlag (parsing : Parsing) (flag : Flag) : Except ArgumentError Parsing := do
  let _ ← parsing.settle
  throw flag.request

/-- Takes an argument that is no option.  Only the value of the last option can be one. -/
def takePlain (parsing : Parsing) (text : String) : Except ArgumentError Parsing :=
  match parsing.pending? with
  | some ⟨option, none⟩ => .ok { parsing with pending? := some ⟨option, some text⟩ }
  | _ => .error .unknown

/-- Takes what follows two dashes: a name, and a value after an equals sign. -/
def takeLong (parsing : Parsing) (text : List Char) : Except ArgumentError Parsing :=
  let attached? :=
    match text.dropWhile (· ≠ '=') with
    | _ :: value => some (String.ofList value)
    | [] => none
  match Switch.ofName? (String.ofList (text.takeWhile (· ≠ '='))) with
  | none => .error .unknown
  | some (.option option) => parsing.takeOption option attached?
  | some (.flag flag) =>
      if attached?.isSome then .error .unexpectedValue else parsing.takeFlag flag

/-- The value that follows the letter of an option, with or without an equals sign. -/
def attachedValue? : List Char → Option String
  | [] => none
  | '=' :: value => some (String.ofList value)
  | value => some (String.ofList value)

/-- Takes what follows one dash: letters, the last of which may have a value. -/
def takeShort (parsing : Parsing) : List Char → Except ArgumentError Parsing
  | [] => .ok parsing
  | letter :: rest =>
      match Switch.ofLetter? letter with
      | none => .error .unknown
      | some (.option option) => parsing.takeOption option (attachedValue? rest)
      | some (.flag flag) => parsing.takeFlag flag

/-- Takes one argument after another.  After two bare dashes no argument is known. -/
def takeAll (parsing : Parsing) : List String → Except ArgumentError Parsing
  | [] => parsing.settle
  | argument :: rest =>
      match argument.toList with
      | ['-', '-'] => if rest = [] then parsing.settle else .error .unknown
      | '-' :: '-' :: text => do takeAll (← parsing.takeLong text) rest
      | '-' :: letter :: text => do takeAll (← parsing.takeShort (letter :: text)) rest
      | _ => do takeAll (← parsing.takePlain argument) rest

end Parsing

/-- An item is looked up in a pallet, and a key in an item. -/
def check (arguments : Arguments) : Except ArgumentError Unit :=
  if arguments.item?.isSome ∧ arguments.pallet?.isNone then .error .missingRequired
  else if arguments.key?.isSome ∧ arguments.item?.isNone then .error .missingRequired
  else .ok ()

def parse (arguments : List String) : Except ArgumentError Arguments := do
  let values := (← Parsing.start.takeAll arguments).values
  let arguments : Arguments := {
    envFile := (values.lookup .envFile).getD ".env"
    pallet? := values.lookup .pallet
    item? := values.lookup .item
    key? := values.lookup .key }
  arguments.check
  return arguments

end Arguments

end ChainClient

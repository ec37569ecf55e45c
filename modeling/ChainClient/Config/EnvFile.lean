import ChainClient.Cache.Directory
import ChainClient.Config.Environment
import ChainClient.Text.Alphanumeric
import ChainClient.Text.Blank

/-! Files of assignments, one a line, that are loaded into an environment. -/

namespace ChainClient.EnvFile

/-- A line, or the value in it, that cannot be read, and the place where reading stopped. -/
structure LineError where
  text : String
  index : Nat
  deriving DecidableEq, Repr

inductive EnvFileError where
  | unreadable
  | line (cause : LineError)
  deriving DecidableEq, Repr

def EnvFileError.message? : EnvFileError → Option String
  | .unreadable => none
  | .line cause =>
      some ("Error parsing line: '" ++ cause.text ++ "', error at line index: " ++
        toString cause.index)

def byteLength (text : List Char) : Nat := (String.ofList text).utf8ByteSize

/-! The part of a line up to its value is read with a cursor, which counts bytes. -/

structure Cursor where
  index : Nat
  rest : List Char

namespace Cursor

def skip (cursor : Cursor) (skipped : Char → Bool) : Cursor :=
  ⟨cursor.index + byteLength (cursor.rest.takeWhile skipped), cursor.rest.dropWhile skipped⟩

def skipBlanks (cursor : Cursor) : Cursor := cursor.skip Text.isBlank

def isNameChar (c : Char) : Bool := c.isAlphanum || c = '_' || c = '.'

/-- Reads a name, or tells where it is missing. -/
def name (cursor : Cursor) : Except Nat (String × Cursor) :=
  match cursor.rest with
  | first :: _ =>
      if first.isAlpha ∨ first = '_' then
        .ok (String.ofList (cursor.rest.takeWhile isNameChar), cursor.skip isNameChar)
      else .error cursor.index
  | [] => .error cursor.index

def equals (cursor : Cursor) : Except Nat Cursor :=
  match cursor.rest with
  | '=' :: rest => .ok ⟨cursor.index + 1, rest⟩
  | _ => .error cursor.index

/-- Reads a name and an equals sign.  The word `export` may stand before the name, and is a
name itself where an equals sign follows it. -/
def assignment (cursor : Cursor) : Except Nat (String × Cursor) := do
  let (name, cursor) ← cursor.name
  match cursor.skipBlanks.equals with
  | .ok cursor => return (name, cursor)
  | .error index =>
      if name = "export" then
        let (name, cursor) ← cursor.skipBlanks.name
        return (name, ← cursor.skipBlanks.equals)
      else throw index

end Cursor

/-! A value is read character by character. -/

inductive Mode where
  | plain
  /-- After a backslash. -/
  | escaped
  /-- Between single quotes. -/
  | literal
  /-- After a dollar sign and the given characters. -/
  | variable (name : List Char)
  /-- After a dollar sign, an opening brace and the given characters. -/
  | braced (name : List Char)
  /-- After a bare blank, where only blanks and a comment may follow. -/
  | ended
  | comment
  deriving DecidableEq, Repr

structure Reading where
  output : List Char
  mode : Mode
  /-- Between double quotes. -/
  quoted : Bool
  deriving DecidableEq, Repr

namespace Reading

def start : Reading := ⟨[], .plain, false⟩

def push (reading : Reading) (c : Char) : Reading :=
  { reading with output := reading.output ++ [c], mode := .plain }

/-- Writes the value of a variable in place of its name.  An unset one has none. -/
def substitute (environment : Environment) (reading : Reading) (name : List Char) :
    Reading :=
  let value := (environment.value? (String.ofList name)).getD ""
  { reading with output := reading.output ++ value.toList, mode := .plain }

/-- Whether a character stands for itself after a backslash. -/
def isEscapable (c : Char) : Bool :=
  c = '\\' || c = '\'' || c = '"' || c = '$' || c = ' '

/-- Reads a character outside single quotes and names. -/
def plainStep (reading : Reading) (c : Char) : Reading :=
  if c = '$' then { reading with mode := .variable [] }
  else if c = '\\' then { reading with mode := .escaped }
  else if c = '"' then { reading with quoted := !reading.quoted }
  else if reading.quoted then reading.push c
  else if c = '\'' then { reading with mode := .literal }
  else if c = ' ' ∨ c = '\t' then { reading with mode := .ended }
  else reading.push c

/-- Reads one more character, unless it may not stand there. -/
def step? (environment : Environment) (reading : Reading) (c : Char) : Option Reading :=
  match reading.mode with
  | .plain => some (reading.plainStep c)
  | .escaped =>
      if isEscapable c then some (reading.push c)
      else if c = 'n' then some (reading.push '\n')
      else none
  | .literal =>
      if c = '\'' then some { reading with mode := .plain }
      else some { reading with output := reading.output ++ [c] }
  | .variable name =>
      if Text.isAlphanumeric c then some { reading with mode := .variable (name ++ [c]) }
      else if c = '\x7b' ∧ name = [] then some { reading with mode := .braced [] }
      else
        let reading := reading.substitute environment name
        if c = '$' then some { reading with mode := .variable [] }
        else some (reading.push c)
  | .braced name =>
      if c = '\x7d' then some (reading.substitute environment name)
      else some { reading with mode := .braced (name ++ [c]) }
  | .ended =>
      if c = ' ' ∨ c = '\t' then some reading
      else if c = '#' then some { reading with mode := .comment }
      else none
  | .comment => some reading

/-- Reads on, or gives the number of the character that may not stand where it does. -/
def run (environment : Environment) : Nat → Reading → List Char → Except Nat Reading
  | _, reading, [] => .ok reading
  | index, reading, c :: rest =>
      match reading.step? environment c with
      | some reading => run environment (index + 1) reading rest
      | none => .error index

/-- What was read, unless a quote or a brace is still open. -/
def finish? (environment : Environment) (reading : Reading) : Option String :=
  if reading.quoted then none
  else
    match reading.mode with
    | .literal | .braced _ => none
    | .variable name => some (String.ofList (reading.substitute environment name).output)
    | _ => some (String.ofList reading.output)

end Reading

def parseValue (environment : Environment) (text : List Char) : Except LineError String :=
  match Reading.start.run environment 0 text with
  | .error index => .error ⟨String.ofList text, index⟩
  | .ok reading =>
      match reading.finish? environment with
      | some value => .ok value
      | none => .error ⟨String.ofList text, byteLength text - 1⟩

/-- Whether nothing but a comment is left. -/
def isVoid : List Char → Bool
  | [] => true
  | first :: _ => first = '#'

/-- The assignment in a line, if it has one. -/
def parseLine (environment : Environment) (line : String) :
    Except LineError (Option (String × String)) :=
  let start := (Cursor.mk 0 (Text.trimEnd line.toList)).skipBlanks
  if isVoid start.rest then .ok none
  else
    match start.assignment with
    | .error index => .error ⟨line, index⟩
    | .ok (name, cursor) =>
        let value := cursor.skipBlanks.rest
        if isVoid value then .ok (some (name, ""))
        else (parseValue environment value).map fun value => some (name, value)

/-- Splits after line feeds.  A carriage return before one belongs to it. -/
def splitLines : Bytes → List Bytes
  | [] => []
  | 13 :: 10 :: rest => [] :: splitLines rest
  | 10 :: rest => [] :: splitLines rest
  | byte :: rest =>
      match splitLines rest with
      | [] => [[byte]]
      | line :: lines => (byte :: line) :: lines

/-- Loads line after line up to the first that cannot be read.  Variables that are
set already keep their values. -/
def loadLines (environment : Environment) :
    List Bytes → Environment × Except EnvFileError Unit
  | [] => (environment, .ok ())
  | line :: rest =>
      match line.toString? with
      | none => (environment, .error .unreadable)
      | some line =>
          match parseLine environment line with
          | .error cause => (environment, .error (.line cause))
          | .ok none => loadLines environment rest
          | .ok (some (name, value)) => loadLines (environment.setNew name value) rest

/-- Loads a file, if it exists. -/
def load (environment : Environment) :
    Option DirectoryEntry → Environment × Except EnvFileError Unit
  | none => (environment, .ok ())
  | some .directory => (environment, .error .unreadable)
  | some (.file content) => loadLines environment (splitLines content)

end ChainClient.EnvFile

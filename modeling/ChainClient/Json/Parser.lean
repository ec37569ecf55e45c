import ChainClient.Json.Lexer

/-! JSON text read token by token onto a stack of the containers that are still open. -/

namespace ChainClient.Json

/-- An open container with what it holds so far, last item first. -/
inductive Frame where
  | array (items : List Written)
  | object (members : List (Option String × Written))
  /-- An object whose next member is named and has no value yet. -/
  | member (members : List (Option String × Written)) (name? : Option String)

/-- What the next token may be. -/
inductive Expected where
  | value
  | valueOrClose
  | name
  | nameOrClose
  | colon
  | commaOrClose
  | nothing (result : Written)

structure Reading where
  frames : List Frame
  expected : Expected

namespace Reading

def start : Reading := ⟨[], .value⟩

/-- Hands a finished value to the innermost open container. -/
def finish? (value : Written) : List Frame → Option Reading
  | [] => some ⟨[], .nothing value⟩
  | .array items :: frames => some ⟨.array (value :: items) :: frames, .commaOrClose⟩
  | .member members name? :: frames =>
      some ⟨.object ((name?, value) :: members) :: frames, .commaOrClose⟩
  | .object _ :: _ => none

def close? (token : Token) : List Frame → Option Reading
  | .array items :: frames =>
      match token with
      | .closeArray => finish? (.array items.reverse) frames
      | _ => none
  | .object members :: frames =>
      match token with
      | .closeObject => finish? (.object members.reverse) frames
      | _ => none
  | _ => none

def value? (token : Token) (frames : List Frame) : Option Reading :=
  match token with
  | .null => finish? .null frames
  | .bool b => finish? (.bool b) frames
  | .number value? => finish? (.number value?) frames
  | .string value? => finish? (.string value?) frames
  | .openArray => some ⟨.array [] :: frames, .valueOrClose⟩
  | .openObject => some ⟨.object [] :: frames, .nameOrClose⟩
  | _ => none

def name? (token : Token) (frames : List Frame) : Option Reading :=
  match token, frames with
  | .string name?, .object members :: frames =>
      some ⟨.member members name? :: frames, .colon⟩
  | _, _ => none

def step? (reading : Reading) (token : Token) : Option Reading :=
  match reading.expected with
  | .value => value? token reading.frames
  | .valueOrClose =>
      match token with
      | .closeArray => close? token reading.frames
      | _ => value? token reading.frames
  | .name => name? token reading.frames
  | .nameOrClose =>
      match token with
      | .closeObject => close? token reading.frames
      | _ => name? token reading.frames
  | .colon =>
      match token with
      | .colon => some ⟨reading.frames, .value⟩
      | _ => none
  | .commaOrClose =>
      match token, reading.frames with
      | .comma, .array _ :: _ => some ⟨reading.frames, .value⟩
      | .comma, .object _ :: _ => some ⟨reading.frames, .name⟩
      | _, _ => close? token reading.frames
  | .nothing _ => none

def result? (reading : Reading) : Option Written :=
  match reading.expected with
  | .nothing result => some result
  | _ => none

end Reading

namespace Written

def ofTokens? (tokens : List Token) : Option Written := do
  let reading ← tokens.foldlM Reading.step? Reading.start
  reading.result?

def parse? (text : String) : Option Written := do
  ofTokens? (← tokens? text.toList)

end Written

/-- Arrays and objects nest at most 127 deep in text from outside. -/
def nestingBudget : Nat := 128

/-- Reads a value without regard to how deep it nests. -/
def parseNested? (text : String) : Option Json := do
  let written ← Written.parse? text
  written.toJson? (written.depth + 1)

def parse? (text : String) : Option Json := do
  (← Written.parse? text).toJson? nestingBudget

end ChainClient.Json

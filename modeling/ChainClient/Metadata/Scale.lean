import ChainClient.Bytes

/-! Reading the fixed layouts of the metadata blob itself.  Here compact integers have one
form only, the shortest. -/

namespace ChainClient.Scale

abbrev Reader (α : Type) := StateT Bytes Option α

namespace Reader

def fail : Reader α := fun _ => none

def byte : Reader UInt8
  | [] => none
  | byte :: rest => some (byte, rest)

def bytes (count : Nat) : Reader Bytes := fun input =>
  if count ≤ input.length then some (input.take count, input.drop count) else none

def natLE (width : Nat) : Reader Nat := do
  return (← bytes width).toNatLE

def guardThat (condition : Bool) : Reader Unit :=
  if condition then pure () else fail

/-- A compact integer of 32 bits, in the shortest of its forms. -/
def compact : Reader Nat := do
  let first := (← byte).toNat
  if first % 4 = 0 then return first / 4
  else if first % 4 = 1 then
    let n := (first + 256 * (← natLE 1)) / 4
    guardThat (2 ^ 6 ≤ n)
    return n
  else if first % 4 = 2 then
    let n := (first + 256 * (← natLE 3)) / 4
    guardThat (2 ^ 14 ≤ n)
    return n
  else
    guardThat (first = 3)
    let n ← natLE 4
    guardThat (2 ^ 30 ≤ n)
    return n

def repeated (item : Reader α) : Nat → Reader (List α)
  | 0 => return []
  | count + 1 => do
      let first ← item
      let rest ← repeated item count
      return first :: rest

def vector (item : Reader α) : Reader (List α) := do
  repeated item (← compact)

def byteVector : Reader Bytes := do
  bytes (← compact)

def text : Reader String := do
  match (← byteVector).toString? with
  | some text => return text
  | none => fail

def texts : Reader (List String) := vector text

def option (item : Reader α) : Reader (Option α) := do
  let tag ← byte
  if tag = 0 then return none
  else if tag = 1 then return some (← item)
  else fail

/-- A sorted map, of which only the reading matters. -/
def entries (key : Reader α) (value : Reader β) : Reader (List (α × β)) :=
  vector do return (← key, ← value)

end Reader

end ChainClient.Scale

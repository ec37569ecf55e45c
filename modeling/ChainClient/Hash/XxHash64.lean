import ChainClient.Hash.Word64

/-! The 64-bit xxHash of a message, for any seed. -/

namespace ChainClient.XxHash64

def prime1 : UInt64 := 0x9E3779B185EBCA87
def prime2 : UInt64 := 0xC2B2AE3D27D4EB4F
def prime3 : UInt64 := 0x165667B19E3779F9
def prime4 : UInt64 := 0x85EBCA77C2B2AE63
def prime5 : UInt64 := 0x27D4EB2F165667C5

def absorb (lane input : UInt64) : UInt64 :=
  Word64.rotateLeft (lane + input * prime2) 31 * prime1

def merge (state lane : UInt64) : UInt64 :=
  (state ^^^ absorb 0 lane) * prime1 + prime4

structure Lanes where
  first : UInt64
  second : UInt64
  third : UInt64
  fourth : UInt64

def Lanes.start (seed : UInt64) : Lanes :=
  ⟨seed + prime1 + prime2, seed + prime2, seed, seed - prime1⟩

def Lanes.stripe (data : Array UInt8) (lanes : Lanes) (index : Nat) : Lanes :=
  let word (i : Nat) := Word64.loadLE data (32 * index + 8 * i)
  ⟨absorb lanes.first (word 0), absorb lanes.second (word 1),
    absorb lanes.third (word 2), absorb lanes.fourth (word 3)⟩

def Lanes.join (lanes : Lanes) : UInt64 :=
  let sum := Word64.rotateLeft lanes.first 1 + Word64.rotateLeft lanes.second 7 +
    Word64.rotateLeft lanes.third 12 + Word64.rotateLeft lanes.fourth 18
  [lanes.first, lanes.second, lanes.third, lanes.fourth].foldl merge sum

def tailWord (data : Array UInt8) (state : UInt64) (offset : Nat) : UInt64 :=
  let state := state ^^^ absorb 0 (Word64.loadLE data offset)
  Word64.rotateLeft state 27 * prime1 + prime4

def tailHalf (data : Array UInt8) (state : UInt64) (offset : Nat) : UInt64 :=
  let half := Word64.loadLE data offset &&& 0xffffffff
  Word64.rotateLeft (state ^^^ half * prime1) 23 * prime2 + prime3

def tailByte (data : Array UInt8) (state : UInt64) (offset : Nat) : UInt64 :=
  let byte := (data.getD offset 0).toUInt64
  Word64.rotateLeft (state ^^^ byte * prime5) 11 * prime1

def avalanche (state : UInt64) : UInt64 :=
  let state := (state ^^^ (state >>> 33)) * prime2
  let state := (state ^^^ (state >>> 29)) * prime3
  state ^^^ (state >>> 32)

/-- Stripes of 32 bytes come first, then words of eight, one half word, and single bytes. -/
def hash (seed : UInt64) (message : Bytes) : UInt64 :=
  let data := message.toArray
  let stripes := data.size / 32
  let state :=
    if stripes = 0 then seed + prime5
    else ((List.range stripes).foldl (Lanes.stripe data) (Lanes.start seed)).join
  let state := state + UInt64.ofNat data.size
  let tail := 32 * stripes
  let words := (data.size - tail) / 8
  let state :=
    (List.range words).foldl (fun state i => tailWord data state (tail + 8 * i)) state
  let tail := tail + 8 * words
  let halves := (data.size - tail) / 4
  let state :=
    (List.range halves).foldl (fun state i => tailHalf data state (tail + 4 * i)) state
  let tail := tail + 4 * halves
  let state := (List.range (data.size - tail)).foldl
    (fun state i => tailByte data state (tail + i)) state
  avalanche state

end ChainClient.XxHash64

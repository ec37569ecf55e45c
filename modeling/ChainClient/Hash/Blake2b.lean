import ChainClient.Hash.Word64

/-! BLAKE2b without a key. -/

namespace ChainClient.Blake2b

abbrev Chain := Vector UInt64 8

abbrev Block := Vector UInt64 16

def initial : Chain :=
  #v[0x6a09e667f3bcc908, 0xbb67ae8584caa73b, 0x3c6ef372fe94f82b, 0xa54ff53a5f1d36f1,
     0x510e527fade682d1, 0x9b05688c2b3e6c1f, 0x1f83d9abfb41bd6b, 0x5be0cd19137e2179]

def schedules : Vector (Vector (Fin 16) 16) 10 :=
  #v[#v[0, 1, 2, 3, 4, 5, 6, 7, 8, 9, 10, 11, 12, 13, 14, 15],
     #v[14, 10, 4, 8, 9, 15, 13, 6, 1, 12, 0, 2, 11, 7, 5, 3],
     #v[11, 8, 12, 0, 5, 2, 15, 13, 10, 14, 3, 6, 7, 1, 9, 4],
     #v[7, 9, 3, 1, 13, 12, 11, 14, 2, 6, 5, 10, 4, 0, 15, 8],
     #v[9, 0, 5, 7, 2, 4, 10, 15, 14, 1, 11, 12, 6, 8, 3, 13],
     #v[2, 12, 6, 10, 0, 11, 8, 3, 4, 13, 7, 5, 15, 14, 1, 9],
     #v[12, 5, 1, 15, 14, 13, 4, 10, 0, 7, 6, 3, 9, 2, 8, 11],
     #v[13, 11, 7, 14, 12, 1, 3, 9, 5, 0, 15, 4, 8, 6, 2, 10],
     #v[6, 15, 14, 9, 11, 3, 0, 8, 12, 2, 13, 7, 1, 4, 10, 5],
     #v[10, 2, 8, 4, 7, 6, 1, 5, 15, 11, 9, 14, 3, 12, 13, 0]]

def mix (state : Block) (a b c d : Fin 16) (x y : UInt64) : Block :=
  let state := state.set a (state[a] + state[b] + x)
  let state := state.set d (Word64.rotateRight (state[d] ^^^ state[a]) 32)
  let state := state.set c (state[c] + state[d])
  let state := state.set b (Word64.rotateRight (state[b] ^^^ state[c]) 24)
  let state := state.set a (state[a] + state[b] + y)
  let state := state.set d (Word64.rotateRight (state[d] ^^^ state[a]) 16)
  let state := state.set c (state[c] + state[d])
  state.set b (Word64.rotateRight (state[b] ^^^ state[c]) 63)

def round (message state : Block) (number : Nat) : Block :=
  let schedule := schedules[Fin.ofNat 10 number]
  let word (i : Fin 16) := message[schedule[i]]
  let state := mix state 0 4 8 12 (word 0) (word 1)
  let state := mix state 1 5 9 13 (word 2) (word 3)
  let state := mix state 2 6 10 14 (word 4) (word 5)
  let state := mix state 3 7 11 15 (word 6) (word 7)
  let state := mix state 0 5 10 15 (word 8) (word 9)
  let state := mix state 1 6 11 12 (word 10) (word 11)
  let state := mix state 2 7 8 13 (word 12) (word 13)
  mix state 3 4 9 14 (word 14) (word 15)

/-- Takes in a block after which `count` message bytes have been read. -/
def compress (chain : Chain) (message : Block) (count : Nat) (last : Bool) : Chain :=
  let state : Block := chain ++ initial
  let state := state.set 12 (state[12] ^^^ UInt64.ofNat count)
  let state := state.set 13 (state[13] ^^^ UInt64.ofNat (count / 2 ^ 64))
  let state := if last then state.set 14 (~~~state[14]) else state
  let state := (List.range 12).foldl (round message) state
  Vector.ofFn fun i : Fin 8 => chain[i] ^^^ state[i.val] ^^^ state[i.val + 8]

def blockAt (message : Array UInt8) (index : Nat) : Block :=
  Vector.ofFn fun i : Fin 16 => Word64.loadLE message (128 * index + 8 * i)

/-- An empty message still has one block. -/
def blockCount (message : Array UInt8) : Nat :=
  max 1 ((message.size + 127) / 128)

def start (outputLength : Nat) : Chain :=
  initial.set 0 (initial[0] ^^^ 0x01010000 ^^^ UInt64.ofNat outputLength)

/-- The digest of `outputLength` bytes, at most 64. -/
def hash (outputLength : Nat) (message : Bytes) : Vector UInt8 outputLength :=
  let data := message.toArray
  let count := blockCount data
  let chain := (List.range count).foldl
    (fun chain index =>
      compress chain (blockAt data index) (min (128 * (index + 1)) data.size)
        (index + 1 == count))
    (start outputLength)
  Vector.ofFn fun i => Word64.byteLE (chain.toArray.getD (i / 8) 0) (i % 8)

end ChainClient.Blake2b

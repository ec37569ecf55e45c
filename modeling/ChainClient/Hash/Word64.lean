import ChainClient.Bytes

/-! 64-bit words as hashes handle them. -/

namespace ChainClient.Word64

def rotateLeft (word : UInt64) (count : UInt64) : UInt64 :=
  (word <<< count) ||| (word >>> (64 - count))

def rotateRight (word : UInt64) (count : UInt64) : UInt64 :=
  (word >>> count) ||| (word <<< (64 - count))

/-- The word whose bytes start at `offset`, least byte first.
Bytes past the end are zero. -/
def loadLE (bytes : Array UInt8) (offset : Nat) : UInt64 :=
  (List.range 8).foldr
    (fun i word => (word <<< 8) ||| (bytes.getD (offset + i) 0).toUInt64) 0

/-- The word whose bytes start at `offset`, greatest byte first. -/
def loadBE (bytes : Array UInt8) (offset : Nat) : UInt64 :=
  (List.range 8).foldl
    (fun word i => (word <<< 8) ||| (bytes.getD (offset + i) 0).toUInt64) 0

def byteLE (word : UInt64) (i : Nat) : UInt8 :=
  (word >>> (8 * UInt64.ofNat i)).toUInt8

def bytesLE (word : UInt64) : Vector UInt8 8 :=
  Vector.ofFn fun i => byteLE word i

end ChainClient.Word64

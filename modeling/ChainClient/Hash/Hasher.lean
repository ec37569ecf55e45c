import ChainClient.Hash.Blake2b
import ChainClient.Hash.XxHash64

/-! The hashes of keys and payloads. -/

namespace ChainClient

structure Hasher where
  blake2_128 : Bytes → Vector UInt8 16
  blake2_256 : Bytes → Vector UInt8 32
  twox_64 : Bytes → Vector UInt8 8
  twox_128 : Bytes → Vector UInt8 16

namespace Hasher

def twox (seed : UInt64) (message : Bytes) : Vector UInt8 8 :=
  Word64.bytesLE (XxHash64.hash seed message)

/-- Longer twox digests put together the hashes under successive seeds. -/
def standard : Hasher where
  blake2_128 := Blake2b.hash 16
  blake2_256 := Blake2b.hash 32
  twox_64 := twox 0
  twox_128 := fun message => twox 0 message ++ twox 1 message

end Hasher

end ChainClient

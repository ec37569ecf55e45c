import ChainClient.Address.Ss58
import ChainClient.Hash.Sha512
import ChainClient.Hex
import ChainClient.Ristretto.Point

/-! Accounts, and what it takes to sign for one. -/

namespace ChainClient

structure Signer where
  /-- Also the account's identity on the chain. -/
  publicKey : Vector UInt8 32
  sign : Bytes → Vector UInt8 64
  address : (format : Nat) → String

/-- Signs, and adds what was to be signed to a record. -/
def Signer.recorded (signer : Signer) (message : Bytes) :
    StateM (List Bytes) (Vector UInt8 64) := do
  modify (· ++ [message])
  return signer.sign message

structure Account where
  publicKey : Vector UInt8 32
  deriving DecidableEq, Repr

namespace Account

/-- The scalar of a 32-byte seed: the first half of its digest, with the lowest three bits
dropped and the highest set bit fixed. -/
def secretScalar (seed : Bytes) : Nat :=
  let half := Bytes.toNatLE ((Sha512.hash seed).toList.take 32)
  (half % 2 ^ 254 + 2 ^ 254) / 8

def ofSeed (seed : Bytes) : Account :=
  ⟨(Ristretto.Point.smul (secretScalar seed) Ristretto.Point.base).toBytes⟩

def parseSecret? (secret : String) : Option Bytes := do
  let seed ← Hex.decode0x? secret
  if seed.length = 32 then some seed else none

def devSecret : String :=
  "0xe5be9a5092b81bca64be81d212e7f2f9eba183bb7a90954f7b76361f6edb5c0a"

/-- The well-known development account. -/
def dev : Account :=
  ofSeed ((parseSecret? devSecret).getD (List.replicate 32 0))

/-- A malformed secret gives the development account. -/
def ofSecret (secret : String) : Account :=
  match parseSecret? secret with
  | some seed => ofSeed seed
  | none => dev

def publicHex (account : Account) : String :=
  Hex.encode0x account.publicKey.toList

def address (account : Account) (format : Nat) : String :=
  Ss58.encode format account.publicKey

/-- Signs with a given function, as signatures are drawn at random. -/
def signer (account : Account) (sign : Bytes → Vector UInt8 64) : Signer where
  publicKey := account.publicKey
  sign := sign
  address := account.address

def debug (account : Account) : String :=
  "Account \x7b public: \"" ++ account.publicHex ++ "\", .. \x7d"

end Account

end ChainClient

import ChainClient.Address.Base58
import ChainClient.Hash.Blake2b

/-! Account addresses: a format number, the 32 bytes of the
account and a checksum, in base 58. -/

namespace ChainClient.Ss58

/-- The formats that are registered and not reserved. -/
def registered : List Nat :=
  List.range 46 ++ (List.range 11).map (· + 48) ++
    [63, 65, 66, 67, 68, 69, 71, 72, 73, 77, 78, 81, 88, 89, 90, 92, 93, 98, 99, 100, 101,
      105, 110, 113, 117, 126, 128, 129, 131, 136, 137, 172, 252, 255, 268, 420, 440, 666,
      777, 789, 995, 1110, 1221, 1222, 1284, 1285, 1328, 1337, 1516, 1985, 2007, 2009, 2021,
      2024, 2032, 2092, 2106, 2112, 2199, 2206, 2207, 2254, 3333, 4450, 5234, 5845, 6094,
      7007, 7013, 7306, 7391, 8866, 8883, 8886, 8888, 9072, 9807, 9935, 10041, 11330, 11331,
      11486, 11820, 12155, 12191, 12850, 13116, 14697, 14998]

/-- Formats have fourteen bits; those below 64 take one byte. -/
def formatBytes (format : Nat) : Bytes :=
  let format := format % 2 ^ 14
  if format < 64 then [UInt8.ofNat format]
  else
    [UInt8.ofNat (64 + format % 256 / 4), UInt8.ofNat (format / 256 + format % 4 * 64)]

/-- The format that a text of bytes starts with, and how many bytes it takes. -/
def format? : Bytes → Option (Nat × Nat)
  | first :: second :: _ =>
      if first < 64 then some (first.toNat, 1)
      else if first < 128 then
        let low := first.toNat * 4 % 256 + second.toNat / 64
        some (low + second.toNat % 64 * 256, 2)
      else none
  | _ => none

def marker : Bytes := Bytes.ofString "SS58PRE"

def checksum (body : Bytes) : Bytes :=
  (Blake2b.hash 64 (marker ++ body)).toList.take 2

def encode (format : Nat) (account : Vector UInt8 32) : String :=
  let body := formatBytes format ++ account.toList
  Base58.encode (body ++ checksum body)

/-- The account that an address of a registered format names. -/
def decode? (text : String) : Option Bytes := do
  let data ← Base58.decode? text
  let (format, formatLength) ← format? data
  let body := data.take (formatLength + 32)
  if data.length = formatLength + 34 ∧ format ∈ registered ∧
      data.drop (formatLength + 32) = checksum body then
    some (body.drop formatLength)
  else none

end ChainClient.Ss58

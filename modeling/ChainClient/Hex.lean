import ChainClient.Bytes
import ChainClient.Text.CharLiteral

/-! Bytes written as pairs of hexadecimal digits, high half first. -/

namespace ChainClient

inductive HexError where
  | oddLength
  /-- The byte at `position` of the text is no hexadecimal digit. -/
  | invalidCharacter (byte : UInt8) (position : Nat)
  deriving DecidableEq, Repr

def HexError.message : HexError → String
  | .oddLength => "Odd number of digits"
  | .invalidCharacter byte position =>
      "Invalid character " ++ Text.charLiteral (Char.ofNat byte.toNat) ++
        " at position " ++ toString position

namespace Hex

def digit (value : Nat) : Char :=
  if value < 10 then Char.ofNat (48 + value) else Char.ofNat (87 + value)

/-- Digits above nine are read in either letter case. -/
def value? (digit : UInt8) : Option Nat :=
  let code := digit.toNat
  if 48 ≤ code ∧ code ≤ 57 then some (code - 48)
  else if 97 ≤ code ∧ code ≤ 102 then some (code - 87)
  else if 65 ≤ code ∧ code ≤ 70 then some (code - 55)
  else none

def digits (bytes : Bytes) : List Char :=
  bytes.flatMap fun byte => [digit (byte.toNat / 16), digit (byte.toNat % 16)]

def encode (bytes : Bytes) : String :=
  String.ofList (digits bytes)

/-- The written form that says it is hexadecimal. -/
def encode0x (bytes : Bytes) : String :=
  "0x" ++ encode bytes

def valueAt (position : Nat) (digit : UInt8) : Except HexError Nat :=
  match value? digit with
  | some value => .ok value
  | none => .error (.invalidCharacter digit position)

def decodePairs (position : Nat) : Bytes → Except HexError Bytes
  | high :: low :: rest => do
      let highValue ← valueAt position high
      let lowValue ← valueAt (position + 1) low
      let bytes ← decodePairs (position + 2) rest
      pure (UInt8.ofNat (16 * highValue + lowValue) :: bytes)
  | _ => .ok []

def decodeBytes (text : Bytes) : Except HexError Bytes :=
  if text.length % 2 = 1 then .error .oddLength else decodePairs 0 text

def decode (text : String) : Except HexError Bytes :=
  decodeBytes (Bytes.ofString text)

def decode? (text : String) : Option Bytes :=
  (decode text).toOption

/-- Reads the form that starts with `0x`. -/
def decode0x? (text : String) : Option Bytes :=
  match text.toList with
  | '0' :: 'x' :: rest => decode? (String.ofList rest)
  | _ => none

end Hex

end ChainClient

import ChainClient.Bytes
import ChainClient.Codec.Error

/-! Compact integers: the two low bits of the first byte tell whether a number
takes one, two or four bytes.  Numbers of `2 ^ 30` and above, which need the fourth
mode, are refused both ways. -/

namespace ChainClient.Codec

def split? : Nat → Bytes → Option (Bytes × Bytes)
  | 0, input => some ([], input)
  | _ + 1, [] => none
  | count + 1, byte :: rest =>
      (split? count rest).map fun parts => (byte :: parts.1, parts.2)

theorem split?_eq (count : Nat) (input : Bytes) :
    split? count input =
      if count ≤ input.length then some (input.take count, input.drop count) else none := by
  induction count generalizing input with
  | zero => simp [split?]
  | succ count ih =>
      cases input with
      | nil => simp [split?]
      | cons byte rest =>
          by_cases h : count ≤ rest.length <;> simp [split?, ih, h]

/-- Splits `count` bytes off the front. -/
def take (count : Nat) (input : Bytes) : Except CodecError (Bytes × Bytes) :=
  match split? count input with
  | some parts => .ok parts
  | none => .error (.unexpectedEnd count input.length)

def takeByte : Bytes → Except CodecError (UInt8 × Bytes)
  | byte :: rest => .ok (byte, rest)
  | [] => .error (.unexpectedEnd 1 0)

def compactLimit : Nat := 2 ^ 30

def encodeCompact (n : Nat) : Except CodecError Bytes :=
  if n < 2 ^ 6 then .ok (Bytes.ofNatLE 1 (4 * n))
  else if n < 2 ^ 14 then .ok (Bytes.ofNatLE 2 (4 * n + 1))
  else if n < compactLimit then .ok (Bytes.ofNatLE 4 (4 * n + 2))
  else .error (.compactOutOfRange n)

/-- How many bytes a compact integer takes that starts with this byte. -/
def compactWidth? (first : UInt8) : Option Nat :=
  match first.toNat % 4 with
  | 0 => some 1
  | 1 => some 2
  | 2 => some 4
  | _ => none

def decodeCompact (input : Bytes) : Except CodecError (Nat × Bytes) := do
  let (first, _) ← takeByte input
  match compactWidth? first with
  | none => .error .unsupportedCompactMode
  | some width =>
      let (raw, rest) ← take width input
      .ok (raw.toNatLE / 4, rest)

end ChainClient.Codec

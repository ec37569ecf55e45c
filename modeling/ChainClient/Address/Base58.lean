import ChainClient.Bytes

/-! Bytes as a number in base 58.  Each leading zero byte is a leading `1`. -/

namespace ChainClient.Base58

def alphabet : List Char :=
  "123456789ABCDEFGHJKLMNPQRSTUVWXYZabcdefghijkmnopqrstuvwxyz".toList

def value? (c : Char) : Option Nat :=
  alphabet.findIdx? (· = c)

/-- The digits of a number, greatest first; none for zero. -/
def digits (base n : Nat) : List Nat :=
  if n = 0 ∨ base < 2 then []
  else digits base (n / base) ++ [n % base]
termination_by n
decreasing_by
  rename_i h
  simp only [not_or, Nat.not_lt] at h
  exact Nat.div_lt_self (Nat.pos_of_ne_zero h.1) h.2

def ofDigits (base : Nat) (digits : List Nat) : Nat :=
  digits.foldl (fun n digit => base * n + digit) 0

def encode (bytes : Bytes) : String :=
  let zeros := (bytes.takeWhile (· = 0)).length
  let n := ofDigits 256 (bytes.map UInt8.toNat)
  String.ofList
    (List.replicate zeros '1' ++ (digits 58 n).map fun digit => alphabet.getD digit '1')

def decode? (text : String) : Option Bytes := do
  let values ← text.toList.mapM value?
  let zeros := (values.takeWhile (· = 0)).length
  some (List.replicate zeros 0 ++ (digits 256 (ofDigits 58 values)).map UInt8.ofNat)

end ChainClient.Base58

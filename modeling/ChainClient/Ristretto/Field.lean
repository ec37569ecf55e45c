import ChainClient.Power

/-! Arithmetic modulo the prime `2 ^ 255 - 19`.  Numbers are kept below the prime. -/

namespace ChainClient.Ristretto

def prime : Nat := 2 ^ 255 - 19

namespace Field

def add (x y : Nat) : Nat := (x + y) % prime

def sub (x y : Nat) : Nat := (x + (prime - y)) % prime

def mul (x y : Nat) : Nat := x * y % prime

def neg (x : Nat) : Nat := (prime - x) % prime

def pow (x exponent : Nat) : Nat :=
  if exponent = 0 then 1
  else
    let root := pow x (exponent / 2)
    let square := mul root root
    if exponent % 2 = 0 then square else mul square x
termination_by exponent

def inv (x : Nat) : Nat := pow x (prime - 2)

/-- Odd numbers count as negative. -/
def isNegative (x : Nat) : Bool := x % 2 == 1

def abs (x : Nat) : Nat := if isNegative x then neg x else x

/-- A square root of `-1`. -/
def sqrtMinusOne : Nat := pow 2 ((prime - 1) / 4)

/-- The non-negative square root of `1 / x`, or of
`sqrtMinusOne / x` when `x` is no square. -/
def invSqrt (x : Nat) : Nat :=
  let cube := mul (mul x x) x
  let root := mul cube (pow (mul (mul cube cube) x) ((prime - 5) / 8))
  let check := mul x (mul root root)
  if check = neg 1 ∨ check = neg sqrtMinusOne then abs (mul root sqrtMinusOne) else abs root

end Field

end ChainClient.Ristretto

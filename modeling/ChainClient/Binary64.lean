import ChainClient.Power

/-! Non-negative binary floating point: 53-bit significands scaled by powers of two.  A
number stands for `significand * 2 ^ exponent`. -/

namespace ChainClient

structure Binary64 where
  significand : Nat
  exponent : Int
  deriving DecidableEq, Repr

namespace Binary64

def minExponent : Int := -1074

def maxExponent : Int := 971

def zero : Binary64 := ⟨0, minExponent⟩

def isZero (x : Binary64) : Bool := x.significand == 0

/-- The nearest integer to a quotient; a half goes to the even neighbour. -/
def roundDiv (num den : Nat) : Nat :=
  let quotient := num / den
  let remainder := num % den
  if 2 * remainder > den ∨ (2 * remainder = den ∧ quotient % 2 = 1) then quotient + 1
  else quotient

/-- Numerator and denominator of `significand * 2 ^ exponent`. -/
def ratio (significand : Nat) (exponent : Int) : Nat × Nat :=
  (significand * 2 ^ exponent.toNat, 2 ^ (-exponent).toNat)

def scaleFor (num den : Nat) : Int :=
  let start : Int := max (num.log2 - den.log2 - 53) minExponent
  let quotient := num * 2 ^ (-start).toNat / (den * 2 ^ start.toNat)
  if quotient < 2 ^ 53 then start else start + 1

/-- The nearest number to `num / den`, or none beyond the largest finite one. -/
def round? (num den : Nat) : Option Binary64 :=
  if num = 0 then some zero
  else
    let scale := scaleFor num den
    let rounded := roundDiv (num * 2 ^ (-scale).toNat) (den * 2 ^ scale.toNat)
    let x : Binary64 :=
      if rounded = 2 ^ 53 then ⟨2 ^ 52, scale + 1⟩ else ⟨rounded, scale⟩
    if x.exponent ≤ maxExponent then some x else none

def ofNat? (n : Nat) : Option Binary64 := round? n 1

def mul? (x y : Binary64) : Option Binary64 :=
  let (num, den) := ratio (x.significand * y.significand) (x.exponent + y.exponent)
  round? num den

def div? (x y : Binary64) : Option Binary64 :=
  let (num, den) := ratio x.significand (x.exponent - y.exponent)
  round? num (den * y.significand)

end Binary64

end ChainClient

import ChainClient.Bytes
import ChainClient.Ristretto.Field

/-! The curve `-x² + y² = 1 + d x² y²` in extended coordinates, and the encoding of its
points as elements of the ristretto group. -/

namespace ChainClient.Ristretto

open ChainClient.Ristretto.Field

def curveD : Nat := mul (neg 121665) (inv 121666)

structure Point where
  x : Nat
  y : Nat
  z : Nat
  /-- The product of the affine coordinates, times `z`. -/
  t : Nat
  deriving DecidableEq, Repr

namespace Point

def zero : Point := ⟨0, 1, 1, 0⟩

def ofAffine (x y : Nat) : Point := ⟨x, y, 1, mul x y⟩

def base : Point :=
  ofAffine
    15112221349535400772501151409588531511454012693041857206046113283949847762202
    46316835694926478169428394003475163141307993866256225615783033603165251855960

def add (p q : Point) : Point :=
  let a := mul (sub p.y p.x) (sub q.y q.x)
  let b := mul (Field.add p.y p.x) (Field.add q.y q.x)
  let c := mul (mul p.t q.t) (mul 2 curveD)
  let d := mul 2 (mul p.z q.z)
  let e := sub b a
  let f := sub d c
  let g := Field.add d c
  let h := Field.add b a
  ⟨mul e f, mul g h, mul f g, mul e h⟩

def smul (n : Nat) (p : Point) : Point :=
  if n = 0 then zero
  else
    let half := smul (n / 2) p
    let double := add half half
    if n % 2 = 0 then double else add double p
termination_by n

def encode (p : Point) : Nat :=
  let first := mul (Field.add p.z p.y) (sub p.z p.y)
  let second := mul p.x p.y
  let root := invSqrt (mul first (mul second second))
  let firstInv := mul root first
  let secondInv := mul root second
  let zInv := mul (mul firstInv secondInv) p.t
  let rotated := isNegative (mul p.t zInv)
  let x := if rotated then mul p.y sqrtMinusOne else p.x
  let y := if rotated then mul p.x sqrtMinusOne else p.y
  let denominator :=
    if rotated then mul firstInv (invSqrt (sub (neg 1) curveD)) else secondInv
  let y := if isNegative (mul x zInv) then neg y else y
  Field.abs (mul denominator (sub p.z y))

def toBytes (p : Point) : Vector UInt8 32 :=
  ⟨(Bytes.ofNatLE 32 p.encode).toArray, by simp⟩

end Point

end ChainClient.Ristretto

import ChainClient.Binary64

/-! The fewest decimal digits that read back as a given number.

A decimal reads back as `x` when it lies in the interval of reals that round to `x`.  The
answer is the point of that interval on the coarsest decimal grid that meets it. -/

namespace ChainClient

structure Decimal where
  digits : Nat
  exponent : Int
  deriving DecidableEq, Repr

namespace Binary64

/-- The interval that rounds to `x`, with its middle, in
quarters of the last binary place. -/
structure Interval where
  low : Nat
  middle : Nat
  high : Nat
  /-- Both ends round to `x` as well. -/
  closed : Bool

def interval (x : Binary64) : Interval where
  low :=
    if x.significand = 2 ^ 52 ∧ minExponent < x.exponent then 4 * x.significand - 1
    else 4 * x.significand - 2
  middle := 4 * x.significand
  high := 4 * x.significand + 2
  closed := x.significand % 2 = 0

def Interval.contains (i : Interval) (num point den : Nat) : Bool :=
  if i.closed then i.low * num ≤ point * den ∧ point * den ≤ i.high * num
  else i.low * num < point * den ∧ point * den < i.high * num

/-- The multiple of `10 ^ place` nearest to `x` among its two
neighbours, if it reads back. -/
def gridPoint? (x : Binary64) (place : Int) : Option Nat :=
  let i := x.interval
  let quarter := x.exponent - 2
  let num := 2 ^ quarter.toNat * 10 ^ (-place).toNat
  let den := 2 ^ (-quarter).toNat * 10 ^ place.toNat
  let below := i.middle * num / den
  match i.contains num below den, i.contains num (below + 1) den with
  | false, false => none
  | true, false => some below
  | false, true => some (below + 1)
  | true, true =>
      let gap := i.middle * num - below * den
      if 2 * gap < den ∨ (2 * gap = den ∧ below % 2 = 0) then some below
      else some (below + 1)

/-- No number has digits above the place `10 ^ 308`, and seventeen digits always suffice. -/
def places : List Int :=
  (List.range 651).map fun i => 308 - Int.ofNat i

def shortest (x : Binary64) : Decimal :=
  let found := places.findSome? fun place =>
    (x.gridPoint? place).map fun point => (⟨point, place⟩ : Decimal)
  found.getD ⟨x.significand, x.exponent⟩

end Binary64

end ChainClient

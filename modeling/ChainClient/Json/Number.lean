import ChainClient.Binary64.Shortest

/-! Numbers as JSON text carries them: 64-bit integers, signed or not, stay exact;
all others are floating point. -/

namespace ChainClient.Json

inductive Number where
  | int (n : Int)
  | real (negative : Bool) (magnitude : Binary64)
  deriving DecidableEq, Repr

namespace Number

def ofNat (n : Nat) : Number := .int n

def toUInt64? : Number → Option Nat
  | .int n => if 0 ≤ n ∧ n < 2 ^ 64 then some n.toNat else none
  | .real .. => none

def toInt64? : Number → Option Int
  | .int n => if -2 ^ 63 ≤ n ∧ n < 2 ^ 63 then some n else none
  | .real .. => none

end Number

/-! Reading.  Digits are collected into 64 bits; those that no longer fit are dropped, and a
dropped integer digit raises the decimal exponent by one. -/

/-- A number as written, digit by digit. -/
structure Numeral where
  negative : Bool
  whole : List Nat
  fraction : List Nat
  /-- Zero when none is written. -/
  exponent : Int
  /-- No point and no exponent is written. -/
  integral : Bool
  deriving DecidableEq, Repr

namespace Numeral

/-- The leading digits that fit 64 bits, appended to
`collected`, and the digits left over. -/
def collect (collected : Nat) : List Nat → Nat × List Nat
  | [] => (collected, [])
  | digit :: rest =>
      if collected * 10 + digit < 2 ^ 64 then collect (collected * 10 + digit) rest
      else (collected, digit :: rest)

def powerOfTen? (exponent : Nat) : Option Binary64 :=
  Binary64.ofNat? (10 ^ exponent)

/-- Divides by `10 ^ exponent`, in steps of at most `10 ^ 308`. -/
def scaleDown? (x : Binary64) (exponent : Nat) : Option Binary64 := do
  if x.isZero then some x
  else if exponent ≤ 308 then x.div? (← powerOfTen? exponent)
  else scaleDown? (← x.div? (← powerOfTen? 308)) (exponent - 308)
termination_by exponent

def scaleUp? (x : Binary64) (exponent : Nat) : Option Binary64 := do
  if x.isZero then some x
  else if exponent ≤ 308 then x.mul? (← powerOfTen? exponent)
  else none

def scale? (significand : Nat) (exponent : Int) : Option Binary64 := do
  let x ← Binary64.ofNat? significand
  if 0 ≤ exponent then scaleUp? x exponent.toNat else scaleDown? x (-exponent).toNat

/-- The number a numeral stands for, or none beyond the floating-point range. -/
def read? (numeral : Numeral) : Option Number :=
  let (whole, dropped) := collect 0 numeral.whole
  if numeral.integral ∧ dropped = [] ∧ !numeral.negative then some (.int whole)
  else if numeral.integral ∧ dropped = [] ∧ 0 < whole ∧ whole ≤ 2 ^ 63 then
    some (.int (-whole))
  else
    let (significand, unread) := collect whole numeral.fraction
    let places := numeral.fraction.length - unread.length
    (scale? significand (dropped.length - places + numeral.exponent)).map
      (.real numeral.negative ·)

end Numeral

/-! Writing.  A floating-point number is written with its fewest digits: positionally,
with at least one decimal, while its leading digit stands between the places `-5` and
`15`, and else with an exponent. -/

namespace Number

def digitsText (n : Nat) : List Char :=
  Nat.toDigits 10 n

def zeros (count : Nat) : List Char :=
  List.replicate count '0'

def scientific (digits : List Char) (lead : Int) : List Char :=
  let mantissa :=
    match digits with
    | [] => []
    | [digit] => [digit]
    | digit :: rest => digit :: '.' :: rest
  mantissa ++ 'e' :: (if lead < 0 then '-' else '+') :: digitsText lead.natAbs

def decimalText (d : Decimal) : List Char :=
  let digits := digitsText d.digits
  let point : Int := digits.length + d.exponent
  if point < -4 ∨ 16 < point then scientific digits (point - 1)
  else if 0 ≤ d.exponent then digits ++ zeros d.exponent.toNat ++ ['.', '0']
  else if 0 < point then digits.take point.toNat ++ '.' :: digits.drop point.toNat
  else ['0', '.'] ++ zeros (-point).toNat ++ digits

def magnitudeText (x : Binary64) : List Char :=
  if x.isZero then ['0', '.', '0'] else decimalText x.shortest

def intText (n : Int) : List Char :=
  if n < 0 then '-' :: digitsText n.natAbs else digitsText n.natAbs

def text : Number → List Char
  | .int n => intText n
  | .real true x => '-' :: magnitudeText x
  | .real false x => magnitudeText x

end Number

end ChainClient.Json

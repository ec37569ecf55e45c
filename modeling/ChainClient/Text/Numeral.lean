/-! Decimal integers of bounded size. -/

namespace ChainClient.Text

inductive NumeralError where
  | empty
  | invalidDigit
  | tooLarge
  deriving DecidableEq, Repr

def NumeralError.message : NumeralError → String
  | .empty => "cannot parse integer from empty string"
  | .invalidDigit => "invalid digit found in string"
  | .tooLarge => "number too large to fit in target type"

def digitValue? (c : Char) : Option Nat :=
  if 48 ≤ c.toNat ∧ c.toNat ≤ 57 then some (c.toNat - 48) else none

/-- Reads digits after `value`.  The first digit that is none, or that leads to
`bound`, tells what is wrong. -/
def parseDigits (bound : Nat) (value : Nat) : List Char → Except NumeralError Nat
  | [] => .ok value
  | c :: rest =>
      match digitValue? c with
      | none => .error .invalidDigit
      | some digit =>
          if 10 * value + digit < bound then parseDigits bound (10 * value + digit) rest
          else .error .tooLarge

def parseNonempty (bound : Nat) : List Char → Except NumeralError Nat
  | [] => .error .invalidDigit
  | digits => parseDigits bound 0 digits

/-- Reads a natural number below `bound`, with or without a plus sign. -/
def parseNatural (bound : Nat) : List Char → Except NumeralError Nat
  | [] => .error .empty
  | '+' :: rest => parseNonempty bound rest
  | digits => parseDigits bound 0 digits

/-- Reads an integer from `-bound` up to, but not including, `bound`. -/
def parseInteger? (bound : Nat) : List Char → Option Int
  | '-' :: rest => (parseNonempty (bound + 1) rest).toOption.map fun n => -(n : Int)
  | text => (parseNatural bound text).toOption.map fun n => (n : Int)

end ChainClient.Text

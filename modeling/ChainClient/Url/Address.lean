import ChainClient.Power
import ChainClient.Url.Error

/-! Numeric hosts. -/

namespace ChainClient.Url

/-! IPv4 addresses have up to four parts, each decimal, octal after a `0`, or hexadecimal
after `0x`.  The last part fills the bytes that are left. -/

def digitIn? (radix : Nat) (c : Char) : Option Nat :=
  let code := c.toNat
  let value? :=
    if 48 ≤ code ∧ code ≤ 57 then some (code - 48)
    else if 97 ≤ code ∧ code ≤ 102 then some (code - 87)
    else if 65 ≤ code ∧ code ≤ 70 then some (code - 55)
    else none
  value?.filter (· < radix)

def numberIn? (radix : Nat) (digits : List Char) : Option Nat := do
  let values ← digits.mapM (digitIn? radix)
  some (values.foldl (fun n digit => radix * n + digit) 0)

/-- A part without digits after its mark is zero. -/
def part? : List Char → Option Nat
  | [] => none
  | '0' :: 'x' :: digits => numberIn? 16 digits
  | '0' :: 'X' :: digits => numberIn? 16 digits
  | '0' :: first :: rest => numberIn? 8 (first :: rest)
  | digits => numberIn? 10 digits

def splitOn (separator : Char) : List Char → List (List Char)
  | [] => [[]]
  | c :: rest =>
      match splitOn separator rest with
      | [] => [[c]]
      | first :: others =>
          if c = separator then [] :: first :: others else (c :: first) :: others

/-- The parts of a host.  One dot at the end is passed over. -/
def hostParts (host : List Char) : List (List Char) :=
  let parts := splitOn '.' host
  match parts.getLast? with
  | some [] => parts.dropLast
  | _ => parts

/-- Whether a host has to be an IPv4 address. -/
def endsInNumber (host : List Char) : Bool :=
  match (hostParts host).getLast? with
  | none => false
  | some last => (!last.isEmpty && last.all Char.isDigit) || (part? last).isSome

def isIpv4 (host : List Char) : Bool :=
  match (hostParts host).mapM part? with
  | none => false
  | some numbers =>
      match numbers.reverse with
      | [] => false
      | last :: others =>
          numbers.length ≤ 4 && last < 256 ^ (4 - others.length) && others.all (· < 256)

/-! IPv6 addresses have eight groups, of which one run of zeros may be left out, and of
which the last two may be written as an IPv4 address. -/

/-- A decimal byte without needless zeros, and what follows it. -/
def decimalByte? (text : List Char) : Option (Nat × List Char) :=
  let digits := text.takeWhile Char.isDigit
  match numberIn? 10 digits with
  | none => none
  | some n =>
      if digits = [] ∨ (digits.head? = some '0' ∧ digits ≠ ['0']) ∨ 255 < n then none
      else some (n, text.dropWhile Char.isDigit)

/-- Whether a text is `count` decimal bytes with dots between them. -/
def isDottedBytes : (count : Nat) → List Char → Bool
  | 0, _ => false
  | 1, text =>
      match decimalByte? text with
      | some (_, []) => true
      | _ => false
  | count + 2, text =>
      match decimalByte? text with
      | some (_, '.' :: rest) => isDottedBytes (count + 1) rest
      | _ => false

/-- Up to four leading hexadecimal digits are dropped, and counted. -/
def dropGroup : (most : Nat) → List Char → Nat × List Char
  | 0, text => (0, text)
  | _ + 1, [] => (0, [])
  | most + 1, c :: rest =>
      if (digitIn? 16 c).isSome then
        let (count, rest) := dropGroup most rest
        (count + 1, rest)
      else (0, c :: rest)

theorem dropGroup_length (most : Nat) (text : List Char) :
    (dropGroup most text).2.length ≤ text.length := by
  induction most generalizing text with
  | zero => simp [dropGroup]
  | succ most ih =>
      cases text with
      | nil => simp [dropGroup]
      | cons c rest =>
          unfold dropGroup
          split
          · exact Nat.le_succ_of_le (ih rest)
          · exact Nat.le_refl _

/-- Whether the rest of an address completes one of which `groups` groups are read. -/
def isIpv6From (groups : Nat) (compressed : Bool) (text : List Char) : Bool :=
  match text with
  | [] => compressed || groups == 8
  | c :: rest =>
      if groups = 8 then false
      else if c = ':' then !compressed && isIpv6From (groups + 1) true rest
      else
        match h : dropGroup 4 (c :: rest) with
        | (_, []) => compressed || groups == 7
        | (_, ':' :: next) => next ≠ [] && isIpv6From (groups + 1) compressed next
        | (count, '.' :: _) =>
            count ≠ 0 && groups ≤ 6 && isDottedBytes 4 (c :: rest) &&
              (compressed || groups == 6)
        | _ => false
termination_by text.length
decreasing_by
  · simp
  · have hlength := dropGroup_length 4 (c :: rest)
    rw [h] at hlength
    simp only [List.length_cons] at hlength ⊢
    omega

def isIpv6 (text : List Char) : Bool :=
  match text with
  | [] => false
  | [_] => false
  | ':' :: ':' :: rest => isIpv6From 1 true rest
  | ':' :: _ => false
  | _ => isIpv6From 0 false text

end ChainClient.Url

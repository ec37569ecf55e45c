import ChainClient.Bytes
import ChainClient.Text.Alphanumeric
import ChainClient.Url.Error

/-! Host names.  Characters beyond ASCII are brought to the form in which they are compared,
and names that have no such form are refused. -/

namespace ChainClient.Url

/-! Percent escapes. -/

def escapeValue? (digit : UInt8) : Option Nat :=
  let code := digit.toNat
  if 48 ≤ code ∧ code ≤ 57 then some (code - 48)
  else if 97 ≤ code ∧ code ≤ 102 then some (code - 87)
  else if 65 ≤ code ∧ code ≤ 70 then some (code - 55)
  else none

def decodeEscapes : Bytes → Bytes
  | 37 :: high :: low :: rest =>
      match escapeValue? high, escapeValue? low with
      | some h, some l => UInt8.ofNat (16 * h + l) :: decodeEscapes rest
      | _, _ => 37 :: decodeEscapes (high :: low :: rest)
  | byte :: rest => byte :: decodeEscapes rest
  | [] => []

/-! Single characters. -/

def inRange (low high : Nat) (c : Char) : Bool := low ≤ c.toNat && c.toNat ≤ high

/-- Characters that names drop. -/
def isIgnored (c : Char) : Bool :=
  c.toNat ∈ [0xAD, 0x34F, 0x200B, 0x2060, 0x2064, 0xFEFF] || inRange 0x180B 0x180F c ||
    inRange 0xFE00 0xFE0F c || inRange 0xE0100 0xE01EF c

/-- Characters that no name may have. -/
def isRefused (c : Char) : Bool :=
  inRange 0x80 0x9F c || c.toNat = 0x1680 || inRange 0x200C 0x200F c ||
    inRange 0x2028 0x202E c || inRange 0x2061 0x2063 c || inRange 0x2065 0x206F c ||
    inRange 0x2FF0 0x2FFF c || inRange 0xE000 0xF8FF c || inRange 0xFDD0 0xFDEF c ||
    inRange 0xFFF0 0xFFFF c || c.toNat % 0x10000 ≥ 0xFFFE || inRange 0xE0000 0x10FFFF c

def isWideSpace (c : Char) : Bool :=
  c.toNat ∈ [0xA0, 0x202F, 0x205F, 0x3000] || inRange 0x2000 0x200A c

def lower (c : Char) : Char :=
  if inRange 65 90 c then Char.ofNat (c.toNat + 32) else c

/-- The form of a character that names are compared by. -/
def mapped? (c : Char) : Option (List Char) :=
  if c.toNat < 128 then some [lower c]
  else if isIgnored c then some []
  else if c.toNat ∈ [0x3002, 0xFF0E, 0xFF61] then some ['.']
  else if inRange 0xFF01 0xFF5E c then some [lower (Char.ofNat (c.toNat - 0xFEE0))]
  else if isWideSpace c then some [' ']
  else if isRefused c then none
  else some [c]

/-- ASCII characters that a host name may not have. -/
def isForbidden (c : Char) : Bool :=
  c.toNat ≤ 32 || c.toNat = 127 ||
    c ∈ ['#', '%', '/', ':', '<', '>', '?', '@', '[', '\\', ']', '^', '|']

def isMark (c : Char) : Bool :=
  inRange 0x300 0x36F c || inRange 0x483 0x489 c || inRange 0x591 0x5BD c ||
    inRange 0x610 0x61A c || inRange 0x64B 0x65F c || inRange 0x6D6 0x6DC c ||
    inRange 0x900 0x903 c || inRange 0x93A 0x93C c || inRange 0x93E 0x94F c ||
    inRange 0xE31 0xE31 c || inRange 0xE34 0xE3A c || inRange 0xE47 0xE4E c ||
    inRange 0x1AB0 0x1AFF c || inRange 0x1DC0 0x1DFF c || inRange 0x20D0 0x20FF c ||
    inRange 0x302A 0x302F c || inRange 0x3099 0x309A c || inRange 0xFE20 0xFE2F c

def isRightToLeft (c : Char) : Bool :=
  inRange 0x590 0x8FF c || inRange 0xFB1D 0xFDFF c || inRange 0xFE70 0xFEFE c ||
    inRange 0x10800 0x10FFF c || inRange 0x1E800 0x1EFFF c

/-! Labels written in ASCII with the mark `xn--`: the ASCII characters of the label, then
the gaps between the others in a base of 36 with shifting thresholds. -/

structure Gaps where
  code : Nat
  position : Nat
  bias : Nat
  first : Bool
  label : List Char

def gapDigit? (c : Char) : Option Nat :=
  if inRange 97 122 c then some (c.toNat - 97)
  else if inRange 48 57 c then some (c.toNat - 22)
  else none

def threshold (bias step : Nat) : Nat :=
  if step ≤ bias + 1 then 1 else if bias + 26 ≤ step then 26 else step - bias

/-- One gap, of which `value` is read so far. -/
def readGap? (bias step value weight : Nat) : List Char → Option (Nat × List Char)
  | [] => none
  | c :: rest => do
      let digit ← gapDigit? c
      let value := value + digit * weight
      let least := threshold bias step
      if digit < least then some (value, rest)
      else readGap? bias (step + 36) value (weight * (36 - least)) rest

def reduceBias (delta steps : Nat) : Nat :=
  if 455 < delta then reduceBias (delta / 35) (steps + 36)
  else steps + 36 * delta / (delta + 38)
termination_by delta

def adaptBias (gap count : Nat) (first : Bool) : Nat :=
  let delta := if first then gap / 700 else gap / 2
  reduceBias (delta + delta / count) 0

def insertGap? (gaps : Gaps) (gap : Nat) : Option Gaps :=
  let place := gaps.position + gap
  let count := gaps.label.length + 1
  let code := gaps.code + place / count
  let position := place % count
  if code < 0xD800 ∨ (0xDFFF < code ∧ code ≤ 0x10FFFF) then
    some {
      code := code
      position := position + 1
      bias := adaptBias gap count gaps.first
      first := false
      label := gaps.label.take position ++ Char.ofNat code :: gaps.label.drop position }
  else none

/-- Inserts at most `steps` characters. -/
def decodeGaps? : (steps : Nat) → Gaps → List Char → Option (List Char)
  | _, gaps, [] => some gaps.label
  | 0, _, _ :: _ => none
  | steps + 1, gaps, text => do
      let (gap, rest) ← readGap? gaps.bias 36 0 1 text
      decodeGaps? steps (← insertGap? gaps gap) rest

/-- A dash in front divides nothing, and is no digit of a gap either. -/
def decodeLabel? (encoded : List Char) : Option (List Char) :=
  let tail := (encoded.reverse.takeWhile (· ≠ '-')).reverse
  let head := (encoded.take (encoded.length - tail.length)).dropLast
  let gaps := if head = [] then encoded else tail
  decodeGaps? gaps.length ⟨128, 0, 72, true, head⟩ gaps

/-! Labels and names. -/

def isAscii (label : List Char) : Bool := label.all (·.toNat < 128)

def startsWell (label : List Char) : Bool :=
  match label with
  | [] => true
  | first :: _ => !isMark first

/-- Left-to-right and right-to-left letters do not share a label. -/
def keepsDirection (label : List Char) : Bool :=
  match label with
  | [] => true
  | first :: _ =>
      if isRightToLeft first then
        label.all fun c => isRightToLeft c || !Text.isAlphanumeric c || c.isDigit
      else !label.any isRightToLeft

def isLabel (label : List Char) : Bool :=
  match label with
  | 'x' :: 'n' :: '-' :: '-' :: encoded =>
      match decodeLabel? encoded with
      | some decoded =>
          isAscii label && !isAscii decoded && startsWell decoded &&
            keepsDirection decoded &&
            decoded.all fun c => mapped? c = some [c]
      | none => false
  | _ => isAscii label || (startsWell label && keepsDirection label)

def labels : List Char → List (List Char)
  | [] => [[]]
  | c :: rest =>
      match labels rest with
      | [] => [[c]]
      | first :: others => if c = '.' then [] :: first :: others else (c :: first) :: others

/-- The form of a host name that it is compared by. -/
def name (text : String) : Except UrlError (List Char) :=
  match (decodeEscapes (Bytes.ofString text)).toString? with
  | none => .error .invalidName
  | some text =>
      match text.toList.mapM mapped? with
      | none => .error .invalidName
      | some parts =>
          let name := parts.flatten
          if name.any isForbidden ∨ !(labels name).all isLabel then .error .invalidName
          else if name = [] then .error .emptyHost
          else .ok name

end ChainClient.Url

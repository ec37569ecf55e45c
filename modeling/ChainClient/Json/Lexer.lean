import ChainClient.Json.Written

/-! The lexemes of JSON text. -/

namespace ChainClient.Json

inductive Token where
  | openArray
  | closeArray
  | openObject
  | closeObject
  | comma
  | colon
  | null
  | bool (b : Bool)
  | number (value? : Option Number)
  | string (value? : Option String)

namespace Lexer

/-! Strings. -/

/-- One unit of a string: a character, or the UTF-16 unit of a `u` escape. -/
inductive Part where
  | char (c : Char)
  | unit (value : Nat)
  deriving DecidableEq, Repr

def hexValue? (c : Char) : Option Nat :=
  let code := c.toNat
  if 48 ≤ code ∧ code ≤ 57 then some (code - 48)
  else if 97 ≤ code ∧ code ≤ 102 then some (code - 87)
  else if 65 ≤ code ∧ code ≤ 70 then some (code - 55)
  else none

def unit? (a b c d : Char) : Option Nat := do
  let a ← hexValue? a
  let b ← hexValue? b
  let c ← hexValue? c
  let d ← hexValue? d
  some (4096 * a + 256 * b + 16 * c + d)

def escaped? : Char → Option Char
  | '"' => some '"'
  | '\\' => some '\\'
  | '/' => some '/'
  | 'b' => some '\x08'
  | 'f' => some '\x0c'
  | 'n' => some '\n'
  | 'r' => some '\r'
  | 't' => some '\t'
  | _ => none

/-- The parts up to the closing quote, and what follows it. -/
def parts? : List Char → Option (List Part × List Char)
  | [] => none
  | '"' :: rest => some ([], rest)
  | '\\' :: 'u' :: a :: b :: c :: d :: rest => do
      let value ← unit? a b c d
      let (parts, rest) ← parts? rest
      some (.unit value :: parts, rest)
  | '\\' :: c :: rest => do
      let c ← escaped? c
      let (parts, rest) ← parts? rest
      some (.char c :: parts, rest)
  | c :: rest =>
      if c.toNat < 32 ∨ c = '\\' then none
      else do
        let (parts, rest) ← parts? rest
        some (.char c :: parts, rest)

def isHighSurrogate (value : Nat) : Bool := 0xD800 ≤ value && value ≤ 0xDBFF

def isLowSurrogate (value : Nat) : Bool := 0xDC00 ≤ value && value ≤ 0xDFFF

/-- Joins surrogate pairs; an unpaired surrogate is no character. -/
def joinUnits? : List Part → Option (List Char)
  | [] => some []
  | .char c :: rest => (joinUnits? rest).map (c :: ·)
  | .unit high :: .unit low :: rest =>
      if isHighSurrogate high then
        if isLowSurrogate low then
          (joinUnits? rest).map
            (Char.ofNat (0x10000 + (high - 0xD800) * 0x400 + (low - 0xDC00)) :: ·)
        else none
      else if isLowSurrogate high then none
      else (joinUnits? (.unit low :: rest)).map (Char.ofNat high :: ·)
  | .unit value :: rest =>
      if isHighSurrogate value || isLowSurrogate value then none
      else (joinUnits? rest).map (Char.ofNat value :: ·)

theorem parts?_length {text rest : List Char} {parts : List Part}
    (h : parts? text = some (parts, rest)) : rest.length < text.length := by
  fun_induction parts? text generalizing parts with
  | case1 => simp at h
  | case2 tail => simp_all
  | case3 a b c d tail ih =>
      simp only [bind, Option.bind_eq_some_iff] at h
      obtain ⟨_, _, ⟨parts', rest'⟩, hparts, h⟩ := h
      cases h
      have : rest'.length < _ := ih hparts
      simp only [List.length_cons]
      omega
  | case4 c tail _ ih =>
      simp only [bind, Option.bind_eq_some_iff] at h
      obtain ⟨_, _, ⟨parts', rest'⟩, hparts, h⟩ := h
      cases h
      have : rest'.length < _ := ih hparts
      simp only [List.length_cons]
      omega
  | case5 => simp at h
  | case6 c tail _ _ _ _ ih =>
      simp only [bind, Option.bind_eq_some_iff] at h
      obtain ⟨⟨parts', rest'⟩, hparts, h⟩ := h
      cases h
      have : rest'.length < _ := ih hparts
      simp only [List.length_cons]
      omega

/-! Numbers. -/

def isDigit (c : Char) : Bool := 48 ≤ c.toNat && c.toNat ≤ 57

def digitValue (c : Char) : Nat := c.toNat - 48

/-- The leading digits, and what follows them. -/
def digits (text : List Char) : List Nat × List Char :=
  ((text.takeWhile isDigit).map digitValue, text.dropWhile isDigit)

theorem digits_length (text : List Char) : (digits text).2.length ≤ text.length := by
  simpa [digits] using (List.dropWhile_suffix isDigit).length_le

theorem digits_length_lt {text : List Char} (h : (digits text).1 ≠ []) :
    (digits text).2.length < text.length := by
  cases text with
  | nil => exact absurd rfl h
  | cons c rest =>
      by_cases hc : isDigit c = true
      · have hrest := (List.dropWhile_suffix (l := rest) isDigit).length_le
        simp only [digits, List.dropWhile_cons_of_pos hc, List.length_cons]
        omega
      · simp [digits, hc] at h

/-- An integer part starts with a zero only if it is zero. -/
def whole? (text : List Char) : Option (List Nat × List Char) :=
  match digits text with
  | ([], _) => none
  | (0 :: _ :: _, _) => none
  | found => some found

theorem whole?_length {text rest : List Char} {found : List Nat}
    (h : whole? text = some (found, rest)) : rest.length < text.length := by
  unfold whole? at h
  split at h
  · simp at h
  · simp at h
  · rename_i hempty _
    simp only [Option.some.injEq] at h
    have hlength := digits_length_lt fun hnil => hempty rest (Prod.ext hnil (by rw [h]))
    rw [h] at hlength
    exact hlength

/-- The digits after a point, none when no point is written. -/
def fraction? : List Char → Option (List Nat × List Char)
  | '.' :: rest =>
      match digits rest with
      | ([], _) => none
      | found => some found
  | text => some ([], text)

theorem fraction?_length {text rest : List Char} {found : List Nat}
    (h : fraction? text = some (found, rest)) : rest.length ≤ text.length := by
  unfold fraction? at h
  split at h
  · rename_i tail
    have hdigits := digits_length tail
    split at h
    · simp at h
    · simp only [Option.some.injEq] at h
      rw [h] at hdigits
      exact Nat.le_succ_of_le hdigits
  · cases h
    omega

def natOfDigits (digits : List Nat) : Nat :=
  digits.foldl (fun value digit => value * 10 + digit) 0

def sign : List Char → Bool × List Char
  | '+' :: rest => (false, rest)
  | '-' :: rest => (true, rest)
  | text => (false, text)

theorem sign_length (text : List Char) : (sign text).2.length ≤ text.length := by
  unfold sign
  split <;> simp

/-- The exponent, and whether one is written. -/
def exponent? : List Char → Option ((Int × Bool) × List Char)
  | [] => some ((0, false), [])
  | e :: rest =>
      if e = 'e' ∨ e = 'E' then
        let signed := sign rest
        match digits signed.2 with
        | ([], _) => none
        | (found, rest) =>
            let value : Int := natOfDigits found
            some ((if signed.1 then -value else value, true), rest)
      else some ((0, false), e :: rest)

theorem exponent?_length {text rest : List Char} {found : Int × Bool}
    (h : exponent? text = some (found, rest)) : rest.length ≤ text.length := by
  unfold exponent? at h
  split at h
  · cases h
    exact Nat.le_refl _
  · rename_i e tail
    split at h
    · have hsign := sign_length tail
      have hdigits := digits_length (sign tail).2
      dsimp only at h
      split at h
      · simp at h
      · rename_i hfound
        simp only [Option.some.injEq, Prod.mk.injEq] at h
        obtain ⟨-, rfl⟩ := h
        rw [hfound] at hdigits
        exact Nat.le_succ_of_le (Nat.le_trans hdigits hsign)
    · cases h
      exact Nat.le_refl _

/-- A number without its sign, and what follows it. -/
def numeral? (negative : Bool) (text : List Char) : Option (Numeral × List Char) := do
  let (whole, rest) ← whole? text
  let (fraction, rest) ← fraction? rest
  let ((exponent, marked), rest) ← exponent? rest
  some (⟨negative, whole, fraction, exponent, fraction.isEmpty && !marked⟩, rest)

theorem numeral?_length {negative : Bool} {text rest : List Char} {numeral : Numeral}
    (h : numeral? negative text = some (numeral, rest)) : rest.length < text.length := by
  simp only [numeral?, bind, Option.bind_eq_some_iff] at h
  obtain ⟨⟨_, rest₁⟩, hwhole, ⟨_, rest₂⟩, hfraction, ⟨_, rest₃⟩, hexponent, h⟩ := h
  cases h
  exact Nat.lt_of_le_of_lt
    (Nat.le_trans (exponent?_length hexponent) (fraction?_length hfraction))
    (whole?_length hwhole)

/-! Text. -/

def isBlank (c : Char) : Bool := c = ' ' || c = '\t' || c = '\n' || c = '\r'

def punctuation? : Char → Option Token
  | '[' => some .openArray
  | ']' => some .closeArray
  | '\x7b' => some .openObject
  | '\x7d' => some .closeObject
  | ',' => some .comma
  | ':' => some .colon
  | _ => none

def stringToken (parts : List Part) : Token :=
  .string ((joinUnits? parts).map String.ofList)

/-- What follows a lexeme in a text. -/
abbrev Rest (text : List Char) := { rest : List Char // rest.length < text.length }

/-- The first lexeme of a text that does not start with a blank, and what follows it. -/
def next? : (text : List Char) → Option (Token × Rest text)
  | [] => none
  | '"' :: rest =>
      match h : parts? rest with
      | some (parts, rest') => some (stringToken parts, ⟨rest', by
          have := parts?_length h
          simp only [List.length_cons]
          omega⟩)
      | none => none
  | 't' :: 'r' :: 'u' :: 'e' :: rest =>
      some (.bool true, ⟨rest, by simp only [List.length_cons]; omega⟩)
  | 'f' :: 'a' :: 'l' :: 's' :: 'e' :: rest =>
      some (.bool false, ⟨rest, by simp only [List.length_cons]; omega⟩)
  | 'n' :: 'u' :: 'l' :: 'l' :: rest =>
      some (.null, ⟨rest, by simp only [List.length_cons]; omega⟩)
  | '-' :: rest =>
      match h : numeral? true rest with
      | some (numeral, rest') => some (.number numeral.read?, ⟨rest', by
          have := numeral?_length h
          simp only [List.length_cons]
          omega⟩)
      | none => none
  | c :: rest =>
      match punctuation? c with
      | some token => some (token, ⟨rest, by simp⟩)
      | none =>
          if isDigit c then
            match h : numeral? false (c :: rest) with
            | some (numeral, rest') =>
                some (.number numeral.read?, ⟨rest', numeral?_length h⟩)
            | none => none
          else none

end Lexer

/-- The lexemes of a whole text. -/
def tokens? (text : List Char) : Option (List Token) :=
  match text with
  | [] => some []
  | c :: rest =>
      if Lexer.isBlank c then tokens? rest
      else
        match Lexer.next? (c :: rest) with
        | some (token, ⟨rest', _⟩) => (tokens? rest').map (token :: ·)
        | none => none
termination_by text.length
decreasing_by
  · exact Nat.lt_succ_self rest.length
  · assumption

end ChainClient.Json

import ChainClient.Json.Lexer
import ChainClient.Proofs.Text.Numeral

/-! Integers of 64 bits are read back from their digits. -/

namespace ChainClient.Json

/-- A text that no number before it takes anything of. -/
def EndsNumber : List Char → Prop
  | [] => True
  | c :: _ => Lexer.isDigit c = false ∧ c ≠ '.' ∧ c ≠ 'e' ∧ c ≠ 'E'

namespace Lexer

theorem isDigit_eq (c : Char) : isDigit c = c.isDigit := rfl

theorem isDigit_of_mem_toDigits {n : Nat} {c : Char} (h : c ∈ Nat.toDigits 10 n) :
    isDigit c = true :=
  (isDigit_eq c).trans (Nat.isDigit_of_mem_toDigits (by decide) (by decide) h)

theorem digits_append {text rest : List Char} (htext : ∀ c ∈ text, isDigit c = true)
    (hrest : EndsNumber rest) : digits (text ++ rest) = (text.map digitValue, rest) := by
  have hnone : rest.takeWhile isDigit = [] ∧ rest.dropWhile isDigit = rest := by
    cases rest with
    | nil => exact ⟨rfl, rfl⟩
    | cons c rest => simp [hrest.1]
  rw [digits, List.takeWhile_append_of_pos htext,
    List.dropWhile_append_of_pos htext, hnone.1, hnone.2, List.append_nil]

/-- Only zero is written with a zero in front. -/
theorem head?_toDigits {n : Nat} (h : 0 < n) :
    ∀ c ∈ (Nat.toDigits 10 n).head?, digitValue c ≠ 0 := by
  induction n using Nat.strongRecOn with
  | ind n ih =>
      rw [Nat.toDigits_eq_if (by decide)]
      split
      case isTrue hsmall =>
        have hdigits : ∀ n < 10, 0 < n → digitValue n.digitChar ≠ 0 := by decide
        simpa using hdigits n hsmall h
      case isFalse hlarge =>
        intro c hc
        refine ih (n / 10) (by omega) (by omega) c ?_
        obtain ⟨first, others, hcons⟩ := List.exists_cons_of_ne_nil
          (Nat.toDigits_ne_nil (n := n / 10) (b := 10))
        rw [hcons] at hc ⊢
        exact hc

theorem map_digitValue_toDigits_ne (n second : Nat) (others : List Nat) :
    (Nat.toDigits 10 n).map digitValue ≠ 0 :: second :: others := by
  intro heq
  rcases Nat.eq_zero_or_pos n with rfl | hpos
  · simp [Nat.toDigits_zero] at heq
  · obtain ⟨c, rest, htext, hc, _⟩ := List.map_eq_cons_iff.mp heq
    exact head?_toDigits hpos c (by simp [htext]) hc

theorem whole?_toDigits (n : Nat) {rest : List Char} (hrest : EndsNumber rest) :
    whole? (Nat.toDigits 10 n ++ rest) =
      some ((Nat.toDigits 10 n).map digitValue, rest) := by
  rw [whole?, digits_append (fun c => isDigit_of_mem_toDigits) hrest]
  split
  case h_1 h =>
    exact absurd (List.map_eq_nil_iff.mp (Prod.mk.inj h).1) Nat.toDigits_ne_nil
  case h_2 h => exact absurd (Prod.mk.inj h).1 (map_digitValue_toDigits_ne n _ _)
  case h_3 => rfl

theorem fraction?_of_endsNumber {rest : List Char} (h : EndsNumber rest) :
    fraction? rest = some ([], rest) := by
  unfold fraction?
  split
  case h_1 => exact absurd rfl h.2.1
  case h_2 => rfl

theorem exponent?_of_endsNumber {rest : List Char} (h : EndsNumber rest) :
    exponent? rest = some ((0, false), rest) := by
  cases rest with
  | nil => rfl
  | cons c rest => simp [exponent?, h.2.2]

/-- A natural number as it is written. -/
def numeralOf (negative : Bool) (n : Nat) : Numeral :=
  ⟨negative, (Nat.toDigits 10 n).map digitValue, [], 0, true⟩

theorem numeral?_toDigits (negative : Bool) (n : Nat) {rest : List Char}
    (hrest : EndsNumber rest) :
    numeral? negative (Nat.toDigits 10 n ++ rest) = some (numeralOf negative n, rest) := by
  simp only [numeral?, whole?_toDigits n hrest, fraction?_of_endsNumber hrest,
    exponent?_of_endsNumber hrest, Option.bind_eq_bind, Option.bind_some]
  rfl

end Lexer

namespace Numeral

open Lexer (digitValue numeralOf)

theorem collect_digitValue {digits : List Char} {value : Nat}
    (h : Nat.ofDigitChars 10 digits value < 2 ^ 64) :
    collect value (digits.map digitValue) = (Nat.ofDigitChars 10 digits value, []) := by
  induction digits generalizing value with
  | nil => rfl
  | cons c rest ih =>
      have hdigit : value * 10 + digitValue c = 10 * value + (c.toNat - '0'.toNat) := by
        rw [Nat.mul_comm]
        rfl
      rw [Nat.ofDigitChars_cons, ← hdigit] at h ⊢
      have hfits := Text.init_le_ofDigitChars rest (value * 10 + digitValue c)
      rw [List.map_cons, collect, if_pos (Nat.lt_of_le_of_lt hfits h)]
      exact ih h

theorem collect_toDigits {n : Nat} (h : n < 2 ^ 64) :
    collect 0 ((Nat.toDigits 10 n).map digitValue) = (n, []) := by
  rw [collect_digitValue] <;> rw [Nat.ofDigitChars_ten_toDigits]
  exact h

theorem read?_numeralOf {n : Nat} (h : n < 2 ^ 64) :
    (numeralOf false n).read? = some (.int n) := by
  simp [read?, numeralOf, collect_toDigits h]

theorem read?_numeralOf_negative {n : Nat} (hpos : 0 < n) (h : n ≤ 2 ^ 63) :
    (numeralOf true n).read? = some (.int (-n)) := by
  simp [read?, numeralOf, collect_toDigits (Nat.lt_of_le_of_lt h (by decide)), hpos, h]

end Numeral

end ChainClient.Json

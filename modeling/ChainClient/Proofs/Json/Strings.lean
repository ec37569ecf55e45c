import ChainClient.Json.Lexer
import ChainClient.Json.Printer
import Mathlib.Tactic.FinCases

/-! Strings are read back from their quoted form. -/

namespace ChainClient.Json.Lexer

/-- What a character is read as: controls without a letter of
their own are written as units. -/
def partOf (c : Char) : Part :=
  if c.toNat < 32 ∧ c ∉ ['\x08', '\x0c', '\n', '\r', '\t'] then .unit c.toNat else .char c

/-- One more part in front of what was read. -/
def prepend (part : Part) (found : List Part × List Char) : List Part × List Char :=
  (part :: found.1, found.2)

theorem hexValue?_hexDigit {value : Nat} (h : value < 16) :
    hexValue? (hexDigit value) = some value := by
  revert h
  revert value
  decide

theorem unit?_hexDigit {value : Nat} (h : value < 32) :
    unit? '0' '0' (hexDigit (value / 16)) (hexDigit (value % 16)) = some value := by
  have hzero : hexValue? '0' = some 0 := by decide
  have hhigh := hexValue?_hexDigit (show value / 16 < 16 by omega)
  have hlow := hexValue?_hexDigit (show value % 16 < 16 by omega)
  simp only [unit?, hzero, hhigh, hlow, Option.bind_eq_bind, Option.bind_some,
    Option.some.injEq]
  omega

theorem parts?_unit {c : Char} (h : c.toNat < 32) (rest : List Char) :
    parts? ('\\' :: 'u' :: '0' :: '0' ::
        hexDigit (c.toNat / 16) :: hexDigit (c.toNat % 16) :: rest) =
      (parts? rest).map (prepend (.unit c.toNat)) := by
  rw [parts?, unit?_hexDigit h]
  cases parts? rest <;> rfl

theorem parts?_escaped {letter c : Char} (h : escaped? letter = some c) (rest : List Char) :
    parts? ('\\' :: letter :: rest) = (parts? rest).map (prepend (.char c)) := by
  have hu : letter ≠ 'u' := by
    rintro rfl
    simp [escaped?] at h
  rw [parts?, h]
  · cases parts? rest <;> rfl
  · intro a b c d tail heq
    exact absurd heq hu

theorem parts?_plain {c : Char} (hquote : c ≠ '"') (hbackslash : c ≠ '\\')
    (h : 32 ≤ c.toNat) (rest : List Char) :
    parts? (c :: rest) = (parts? rest).map (prepend (.char c)) := by
  rw [parts?, if_neg]
  · cases parts? rest <;> rfl
  all_goals grind

/-- How a character is written: by a letter, by its number, or as it is. -/
theorem escapeChar_eq (c : Char) :
    (∃ letter, escapeChar c = ['\\', letter] ∧ escaped? letter = some c ∧
      partOf c = .char c) ∨
      (c.toNat < 32 ∧ partOf c = .unit c.toNat ∧
        escapeChar c =
          ['\\', 'u', '0', '0', hexDigit (c.toNat / 16), hexDigit (c.toNat % 16)]) ∨
      (c ≠ '"' ∧ c ≠ '\\' ∧ 32 ≤ c.toNat ∧ escapeChar c = [c] ∧ partOf c = .char c) := by
  by_cases hletter : c ∈ ['"', '\\', '\x08', '\x0c', '\n', '\r', '\t']
  · left
    fin_cases hletter
    · exact ⟨'"', by decide⟩
    · exact ⟨'\\', by decide⟩
    · exact ⟨'b', by decide⟩
    · exact ⟨'f', by decide⟩
    · exact ⟨'n', by decide⟩
    · exact ⟨'r', by decide⟩
    · exact ⟨'t', by decide⟩
  · simp only [List.mem_cons, List.not_mem_nil, or_false, not_or] at hletter
    by_cases hcontrol : c.toNat < 32
    · simp [escapeChar, partOf, hletter, hcontrol]
    · simp [escapeChar, partOf, hletter, hcontrol]
      omega

theorem parts?_escapeChar (c : Char) (rest : List Char) :
    parts? (escapeChar c ++ rest) = (parts? rest).map (prepend (partOf c)) := by
  rcases escapeChar_eq c with
    ⟨letter, htext, hletter, hpart⟩ | ⟨hcontrol, hpart, htext⟩ |
      ⟨hquote, hslash, h, htext, hpart⟩
  · rw [htext, hpart]
    exact parts?_escaped hletter rest
  · rw [htext, hpart]
    exact parts?_unit hcontrol rest
  · rw [htext, hpart]
    exact parts?_plain hquote hslash h rest

theorem parts?_flatMap_escapeChar (text rest : List Char) :
    parts? (text.flatMap escapeChar ++ '"' :: rest) = some (text.map partOf, rest) := by
  induction text with
  | nil => rw [List.flatMap_nil, List.nil_append, parts?, List.map_nil]
  | cons c text ih =>
      rw [List.flatMap_cons, List.append_assoc, parts?_escapeChar, ih]
      rfl

/-- A control stands for itself, whether another unit follows it or not. -/
theorem joinUnits?_unit {c : Char} (h : c.toNat < 32) (rest : List Part) :
    joinUnits? (.unit c.toNat :: rest) = (joinUnits? rest).map (c :: ·) := by
  have hhigh : isHighSurrogate c.toNat = false := by
    simp only [isHighSurrogate, Bool.and_eq_false_iff, decide_eq_false_iff_not]
    omega
  have hlow : isLowSurrogate c.toNat = false := by
    simp only [isLowSurrogate, Bool.and_eq_false_iff, decide_eq_false_iff_not]
    omega
  cases rest with
  | nil => simp [joinUnits?, hhigh, hlow]
  | cons part rest =>
      cases part <;> simp [joinUnits?, hhigh, hlow]

theorem joinUnits?_map_partOf (text : List Char) :
    joinUnits? (text.map partOf) = some text := by
  induction text with
  | nil => rfl
  | cons c text ih =>
      rw [List.map_cons]
      rcases escapeChar_eq c
        with ⟨_, _, _, hpart⟩ | ⟨hcontrol, hpart, _⟩ | ⟨_, _, _, _, hpart⟩
      · rw [hpart, joinUnits?, ih]
        rfl
      · rw [hpart, joinUnits?_unit hcontrol, ih]
        rfl
      · rw [hpart, joinUnits?, ih]
        rfl

end ChainClient.Json.Lexer

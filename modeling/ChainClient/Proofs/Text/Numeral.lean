import ChainClient.Proofs.Outcome
import ChainClient.Text.Numeral

/-! Numbers are read back from their decimal digits. -/

namespace ChainClient.Text

theorem digitValue?_of_isDigit {c : Char} (h : c.isDigit = true) :
    digitValue? c = some (c.toNat - '0'.toNat) := by
  simp only [Char.isDigit, Bool.and_eq_true, decide_eq_true_eq] at h
  exact if_pos h

theorem isDigit_of_digitValue? {c : Char} {digit : Nat} (h : digitValue? c = some digit) :
    c.isDigit = true := by
  unfold digitValue? at h
  split at h
  case isTrue hrange =>
    simp only [Char.isDigit, Bool.and_eq_true, decide_eq_true_eq]
    exact hrange
  case isFalse => cases h

theorem isDigit_of_mem_toDigits {n : Nat} {c : Char} (h : c ∈ Nat.toDigits 10 n) :
    c.isDigit = true :=
  Nat.isDigit_of_mem_toDigits (by decide) (by decide) h

theorem init_le_ofDigitChars (digits : List Char) (value : Nat) :
    value ≤ Nat.ofDigitChars 10 digits value := by
  induction digits generalizing value with
  | nil => exact Nat.le_refl value
  | cons c rest ih =>
      rw [Nat.ofDigitChars_cons]
      have hrest := ih (10 * value + (c.toNat - '0'.toNat))
      omega

theorem parseDigits_of_lt {bound value : Nat} {digits : List Char}
    (hdigits : ∀ c ∈ digits, c.isDigit = true)
    (hbound : Nat.ofDigitChars 10 digits value < bound) :
    parseDigits bound value digits = .ok (Nat.ofDigitChars 10 digits value) := by
  induction digits generalizing value with
  | nil => rfl
  | cons c rest ih =>
      obtain ⟨hc, hrest⟩ := List.forall_mem_cons.mp hdigits
      rw [Nat.ofDigitChars_cons] at hbound ⊢
      have hfits := init_le_ofDigitChars rest (10 * value + (c.toNat - '0'.toNat))
      simp only [parseDigits, digitValue?_of_isDigit hc]
      rw [if_pos (Nat.lt_of_le_of_lt hfits hbound)]
      exact ih hrest hbound

theorem parseNatural_of_isDigit {bound : Nat} {digits : List Char} (hnonempty : digits ≠ [])
    (hdigits : ∀ c ∈ digits, c.isDigit = true) :
    parseNatural bound digits = parseDigits bound 0 digits := by
  cases digits with
  | nil => exact absurd rfl hnonempty
  | cons c rest =>
      have hc : c ≠ '+' := by
        rintro rfl
        exact absurd (hdigits '+' List.mem_cons_self) (by decide)
      unfold parseNatural
      split
      case h_1 h => cases h
      case h_2 h => exact absurd (List.cons.inj h).1 hc
      case h_3 => rfl

theorem parseNatural_toDigits {bound n : Nat} (h : n < bound) :
    parseNatural bound (Nat.toDigits 10 n) = .ok n := by
  have hdigits : ∀ c ∈ Nat.toDigits 10 n, c.isDigit = true :=
    fun c => isDigit_of_mem_toDigits
  rw [parseNatural_of_isDigit Nat.toDigits_ne_nil hdigits, parseDigits_of_lt hdigits]
  · rw [Nat.ofDigitChars_ten_toDigits]
  · rwa [Nat.ofDigitChars_ten_toDigits]

/-! What is read as a number consists of digits, but for a plus sign in front. -/

theorem isDigit_of_parseDigits {bound value n : Nat} {digits : List Char}
    (h : parseDigits bound value digits = .ok n) : ∀ c ∈ digits, c.isDigit = true := by
  induction digits generalizing value with
  | nil => simp
  | cons c rest ih =>
      rw [parseDigits] at h
      split at h
      case h_1 => cases h
      case h_2 digit hdigit =>
        split at h
        case isTrue => exact List.forall_mem_cons.mpr ⟨isDigit_of_digitValue? hdigit, ih h⟩
        case isFalse => cases h

theorem isDigit_of_parseNatural {bound n : Nat} {text : List Char}
    (h : parseNatural bound text = .ok n) : ∀ c ∈ text, c = '+' ∨ c.isDigit = true := by
  unfold parseNatural at h
  split at h
  case h_1 => cases h
  case h_2 rest =>
    refine List.forall_mem_cons.mpr ⟨.inl rfl, fun c hc => .inr ?_⟩
    cases rest with
    | nil => cases hc
    | cons first others => exact isDigit_of_parseDigits h c hc
  case h_3 => exact fun c hc => .inr (isDigit_of_parseDigits h c hc)

/-! What is read as an integer is one in decimal digits. -/

/-- A text is an integer in decimal digits, with or without a sign. -/
inductive Decimal : List Char → Int → Prop
  | unsigned {digits : List Char} (hnonempty : digits ≠ [])
      (hdigits : ∀ c ∈ digits, c.isDigit = true) :
      Decimal digits (Nat.ofDigitChars 10 digits 0)
  | plus {digits : List Char} (hnonempty : digits ≠ [])
      (hdigits : ∀ c ∈ digits, c.isDigit = true) :
      Decimal ('+' :: digits) (Nat.ofDigitChars 10 digits 0)
  | minus {digits : List Char} (hnonempty : digits ≠ [])
      (hdigits : ∀ c ∈ digits, c.isDigit = true) :
      Decimal ('-' :: digits) (-Nat.ofDigitChars 10 digits 0)

theorem of_parseDigits {bound value n : Nat} (hvalue : value < bound) {digits : List Char}
    (h : parseDigits bound value digits = .ok n) :
    n = Nat.ofDigitChars 10 digits value ∧ n < bound := by
  induction digits generalizing value with
  | nil =>
      obtain rfl := Except.ok.inj h
      exact ⟨rfl, hvalue⟩
  | cons c rest ih =>
      rw [parseDigits] at h
      split at h
      case h_1 => cases h
      case h_2 digit hdigit =>
        split at h
        case isTrue hfits =>
          obtain rfl : c.toNat - '0'.toNat = digit := Option.some.inj
            ((digitValue?_of_isDigit (isDigit_of_digitValue? hdigit)).symm.trans hdigit)
          rw [Nat.ofDigitChars_cons]
          exact ih hfits h
        case isFalse => cases h

theorem of_parseNonempty {bound n : Nat} (hbound : 0 < bound) {digits : List Char}
    (h : parseNonempty bound digits = .ok n) :
    digits ≠ [] ∧ (∀ c ∈ digits, c.isDigit = true) ∧ n = Nat.ofDigitChars 10 digits 0 ∧
      n < bound := by
  cases digits with
  | nil => cases h
  | cons c rest =>
      exact ⟨List.cons_ne_nil c rest, isDigit_of_parseDigits h, of_parseDigits hbound h⟩

theorem decimal_of_parseNatural {bound n : Nat} (hbound : 0 < bound) {text : List Char}
    (h : parseNatural bound text = .ok n) : Decimal text n ∧ n < bound := by
  unfold parseNatural at h
  split at h
  case h_1 => cases h
  case h_2 rest =>
    obtain ⟨hnonempty, hdigits, rfl, hlt⟩ := of_parseNonempty hbound h
    exact ⟨.plus hnonempty hdigits, hlt⟩
  case h_3 hnonempty _ =>
    obtain ⟨rfl, hlt⟩ := of_parseDigits hbound h
    exact ⟨.unsigned hnonempty (isDigit_of_parseDigits h), hlt⟩

theorem decimal_of_parseInteger? {bound : Nat} (hbound : 0 < bound) {n : Int}
    {text : List Char} (h : parseInteger? bound text = some n) :
    Decimal text n ∧ -bound ≤ n ∧ n < bound := by
  unfold parseInteger? at h
  split at h
  case h_1 rest =>
    obtain ⟨_, hread, rfl⟩ := Option.map_eq_some_iff.mp h
    obtain ⟨m, hm, hcast⟩ := Option.bind_eq_some_iff.mp hread
    obtain rfl := Option.some.inj hcast
    obtain ⟨hnonempty, hdigits, rfl, hlt⟩ :=
      of_parseNonempty (Nat.succ_pos bound) (ok_of_toOption hm)
    exact ⟨.minus hnonempty hdigits, by omega, by omega⟩
  case h_2 =>
    obtain ⟨_, hread, rfl⟩ := Option.map_eq_some_iff.mp h
    obtain ⟨m, hm, hcast⟩ := Option.bind_eq_some_iff.mp hread
    obtain rfl := Option.some.inj hcast
    obtain ⟨hdecimal, hlt⟩ := decimal_of_parseNatural hbound (ok_of_toOption hm)
    exact ⟨hdecimal, by omega, by omega⟩

theorem parseInteger?_neg {bound n : Nat} (h : n ≤ bound) :
    parseInteger? bound ('-' :: Nat.toDigits 10 n) = some (-(n : Int)) := by
  have hdigits : parseNonempty (bound + 1) (Nat.toDigits 10 n) = .ok n := by
    obtain ⟨c, rest, hcons⟩ :=
      List.exists_cons_of_ne_nil (Nat.toDigits_ne_nil (n := n) (b := 10))
    have hread := parseNatural_toDigits (Nat.lt_succ_of_le h)
    rw [parseNatural_of_isDigit Nat.toDigits_ne_nil fun c => isDigit_of_mem_toDigits]
      at hread
    rw [hcons] at hread ⊢
    exact hread
  simp only [parseInteger?, hdigits]
  rfl

end ChainClient.Text

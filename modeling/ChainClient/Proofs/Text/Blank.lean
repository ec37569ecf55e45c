import ChainClient.Text.Blank

/-! Text between blanks. -/

namespace ChainClient.Text

theorem not_blank_of_digit {c : Char} (h : c.isDigit = true) : isBlank c = false := by
  simp only [Char.isDigit, Bool.and_eq_true, decide_eq_true_eq, UInt32.le_iff_toNat_le] at h
  have hlow : 48 ≤ c.toNat := h.1
  have hhigh : c.toNat ≤ 57 := h.2
  cases hblank : isBlank c with
  | false => rfl
  | true =>
      simp only [isBlank, Bool.or_eq_true, Bool.and_eq_true, decide_eq_true_eq,
        beq_iff_eq] at hblank
      omega

/-- No blank stands at either end of a text. -/
structure Trimmed (text : List Char) : Prop where
  first : ∀ c ∈ text.head?, isBlank c = false
  last : ∀ c ∈ text.getLast?, isBlank c = false

theorem trimmed_of_not_blank {text : List Char} (h : ∀ c ∈ text, isBlank c = false) :
    Trimmed text where
  first c hc := h c (List.mem_of_mem_head? hc)
  last c hc := h c (List.mem_of_mem_getLast? hc)

theorem dropWhile_blank {blanks rest : List Char} (hblanks : ∀ c ∈ blanks, isBlank c = true)
    (hrest : ∀ c ∈ rest.head?, isBlank c = false) :
    (blanks ++ rest).dropWhile isBlank = rest := by
  rw [List.dropWhile_append_of_pos hblanks]
  cases rest with
  | nil => rfl
  | cons c rest => rw [List.dropWhile_cons_of_neg (by simp [hrest c rfl])]

/-- Trimming takes away the blanks around a text and nothing of the text. -/
theorem trim_of_blanks {before text after : List Char}
    (hbefore : ∀ c ∈ before, isBlank c = true) (hafter : ∀ c ∈ after, isBlank c = true)
    (htext : Trimmed text) : trim (before ++ text ++ after) = text := by
  have hend : trimEnd (text ++ after) = text := by
    have hreverse : (text ++ after).reverse.dropWhile isBlank = text.reverse := by
      rw [List.reverse_append]
      apply dropWhile_blank
      · exact fun c hc => hafter c (List.mem_reverse.mp hc)
      · rw [List.head?_reverse]
        exact htext.last
    rw [trimEnd, hreverse, List.reverse_reverse]
  rw [trim, trimStart]
  cases text with
  | nil =>
      have hblanks : ∀ c ∈ before ++ [] ++ after, isBlank c = true := by
        rw [List.append_nil]
        exact List.forall_mem_append.mpr ⟨hbefore, hafter⟩
      have hnothing : (before ++ [] ++ after ++ []).dropWhile isBlank = [] :=
        dropWhile_blank hblanks nofun
      rw [List.append_nil] at hnothing
      rw [hnothing]
      rfl
  | cons c rest =>
      have hrest : ∀ first ∈ (c :: rest ++ after).head?, isBlank first = false :=
        htext.first
      rw [List.append_assoc, dropWhile_blank hbefore hrest, hend]

end ChainClient.Text

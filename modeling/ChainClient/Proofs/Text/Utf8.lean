import ChainClient.Bytes

/-! Text is carried as UTF-8 without loss, and text of one-byte characters byte for byte. -/

namespace ChainClient.Bytes

theorem toArray_ofString (text : String) :
    (⟨(ofString text).toArray⟩ : ByteArray) = text.toByteArray := by
  simp [ofString]

@[simp] theorem toString?_ofString (text : String) :
    (ofString text).toString? = some text := by
  simp only [toString?, toArray_ofString, String.fromUTF8?]
  rw [dif_pos text.isValidUTF8]
  rfl

theorem ofString_of_toString? {bytes : Bytes} {text : String}
    (h : bytes.toString? = some text) : ofString text = bytes := by
  simp only [toString?, String.fromUTF8?] at h
  split at h
  · cases h
    simp [ofString, String.fromUTF8]
  · contradiction

theorem ofString_ofList_cons (c : Char) (rest : List Char) :
    ofString (String.ofList (c :: rest)) =
      String.utf8EncodeChar c ++ ofString (String.ofList rest) := by
  simp only [ofString, String.toByteArray_ofList]
  rw [List.utf8Encode_cons, List.utf8Encode_singleton]
  simp

/-! Characters of one byte. -/

theorem utf8EncodeChar_of_lt {c : Char} (h : c.toNat < 128) :
    String.utf8EncodeChar c = [UInt8.ofNat c.toNat] :=
  if_pos (Nat.le_of_lt_succ h)

/-- Characters of more bytes start with a byte that no character of one byte has. -/
theorem utf8EncodeChar_of_le {c : Char} (h : 128 ≤ c.toNat) :
    ∃ first ∈ String.utf8EncodeChar c, 128 ≤ first.toNat := by
  have hlong : ¬ c.val.toNat ≤ 127 := Nat.not_le.mpr h
  unfold String.utf8EncodeChar
  simp only [if_neg hlong]
  split
  case isTrue => exact ⟨_, List.mem_cons_self, by rw [UInt8.toNat_ofNat']; omega⟩
  case isFalse =>
    split
    case isTrue => exact ⟨_, List.mem_cons_self, by rw [UInt8.toNat_ofNat']; omega⟩
    case isFalse => exact ⟨_, List.mem_cons_self, by rw [UInt8.toNat_ofNat']; omega⟩

theorem ofString_ofList_of_lt {text : List Char} (h : ∀ c ∈ text, c.toNat < 128) :
    ofString (String.ofList text) = text.map fun c => UInt8.ofNat c.toNat := by
  induction text with
  | nil => rfl
  | cons c rest ih =>
      obtain ⟨hc, hrest⟩ := List.forall_mem_cons.mp h
      rw [ofString_ofList_cons, utf8EncodeChar_of_lt hc, ih hrest]
      rfl

theorem lt_of_ofString_lt {text : List Char}
    (h : ∀ byte ∈ ofString (String.ofList text), byte.toNat < 128) :
    ∀ c ∈ text, c.toNat < 128 := by
  induction text with
  | nil => nofun
  | cons c rest ih =>
      rw [ofString_ofList_cons, List.forall_mem_append] at h
      refine List.forall_mem_cons.mpr ⟨Nat.lt_of_not_le fun hlong => ?_, ih h.2⟩
      obtain ⟨first, hmem, hfirst⟩ := utf8EncodeChar_of_le hlong
      exact absurd (h.1 first hmem) (Nat.not_lt.mpr hfirst)

end ChainClient.Bytes

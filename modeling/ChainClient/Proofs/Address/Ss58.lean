import ChainClient.Address.Ss58
import ChainClient.Proofs.Address.Base58

/-! Which texts are addresses of a key. -/

namespace ChainClient.Ss58

/-- Bytes that stand for a format: one below 64, or two that carry fourteen bits, the lowest
two of them on top of the second byte. -/
inductive Prefixes : Bytes → Nat → Prop where
  | short {first : UInt8} (h : first.toNat < 64) : Prefixes [first] first.toNat
  | long {first second : UInt8} {format : Nat} (hlow : 64 ≤ first.toNat)
      (hhigh : first.toNat < 128)
      (hformat : format =
        first.toNat % 64 * 4 + second.toNat / 64 + second.toNat % 64 * 256) :
      Prefixes [first, second] format

/-- A text is an address of a key: in base 58 it is the prefix of a registered format, the
key and the checksum of both. -/
def Addresses (text : String) (key : Bytes) : Prop :=
  ∃ front format, Prefixes front format ∧ format ∈ registered ∧ key.length = 32 ∧
    Base58.decode? text = some (front ++ key ++ checksum (front ++ key))

theorem length_checksum (body : Bytes) : (checksum body).length = 2 := by
  simp [checksum]

theorem toNat_ofNat_of_lt {n : Nat} (h : n < 256) : (UInt8.ofNat n).toNat = n :=
  Nat.mod_eq_of_lt h

theorem prefixes_formatBytes (format : Nat) :
    Prefixes (formatBytes format) (format % 2 ^ 14) := by
  have hbound : format % 2 ^ 14 < 2 ^ 14 := Nat.mod_lt format (by decide)
  simp only [formatBytes]
  generalize format % 2 ^ 14 = number at hbound
  split
  case isTrue hshort =>
    have hfirst := toNat_ofNat_of_lt (show number < 256 by omega)
    have hprefixes : Prefixes [UInt8.ofNat number] (UInt8.ofNat number).toNat :=
      .short (by rwa [hfirst])
    rwa [hfirst] at hprefixes
  case isFalse hlong =>
    have hfirst := toNat_ofNat_of_lt (show 64 + number % 256 / 4 < 256 by omega)
    have hsecond := toNat_ofNat_of_lt (show number / 256 + number % 4 * 64 < 256 by omega)
    apply Prefixes.long
    · rw [hfirst]
      omega
    · rw [hfirst]
      omega
    · have hmiddle : (64 + number % 256 / 4) % 64 = number % 256 / 4 := by omega
      have hlowest : (number / 256 + number % 4 * 64) / 64 = number % 4 := by omega
      have hhighest : (number / 256 + number % 4 * 64) % 64 = number / 256 := by omega
      rw [hfirst, hsecond, hmiddle, hlowest, hhighest]
      omega

theorem format?_cons (first second : UInt8) (rest : Bytes) :
    format? (first :: second :: rest) =
      if first.toNat < 64 then some (first.toNat, 1)
      else if first.toNat < 128 then
        some (first.toNat % 64 * 4 + second.toNat / 64 + second.toNat % 64 * 256, 2)
      else none := by
  have h64 : (64 : UInt8).toNat = 64 := rfl
  have h128 : (128 : UInt8).toNat = 128 := rfl
  simp only [format?, UInt8.lt_iff_toNat_lt, h64, h128]
  split
  case isTrue => rfl
  case isFalse hlow =>
    split
    case isTrue hhigh => rw [show first.toNat * 4 % 256 = first.toNat % 64 * 4 by omega]
    case isFalse => rfl

theorem format?_of_prefixes {front rest : Bytes} {format : Nat} (h : Prefixes front format)
    (hrest : rest ≠ []) : format? (front ++ rest) = some (format, front.length) := by
  cases h with
  | short h =>
      obtain ⟨second, others, rfl⟩ := List.exists_cons_of_ne_nil hrest
      simp [format?_cons, h]
  | long hlow hhigh hformat =>
      simp [format?_cons, Nat.not_lt.mpr hlow, hhigh, hformat]

theorem prefixes_of_format? {data : Bytes} {format length : Nat}
    (h : format? data = some (format, length)) :
    ∃ front rest, data = front ++ rest ∧ Prefixes front format ∧ length = front.length := by
  match data with
  | first :: second :: rest =>
      rw [format?_cons] at h
      split at h
      case isTrue hshort =>
        cases h
        exact ⟨[first], second :: rest, rfl, .short hshort, rfl⟩
      case isFalse hlow =>
        split at h
        case isTrue hhigh =>
          cases h
          exact ⟨[first, second], rest, rfl, .long (Nat.not_lt.mp hlow) hhigh rfl, rfl⟩
        case isFalse => cases h

theorem decode?_eq_some {text : String} {key : Bytes} :
    decode? text = some key ↔ Addresses text key := by
  simp only [decode?, Option.bind_eq_bind, Option.bind_eq_some_iff]
  constructor
  · rintro ⟨data, hdata, ⟨format, length⟩, hformat, h⟩
    obtain ⟨front, rest, rfl, hfront, rfl⟩ := prefixes_of_format? hformat
    simp only [List.take_length_add_append, List.drop_length_add_append,
      List.drop_left] at h
    split at h
    case isTrue hvalid =>
      obtain ⟨hlength, hregistered, hchecksum⟩ := hvalid
      obtain rfl := Option.some.inj h
      rw [List.length_append] at hlength
      refine ⟨front, format, hfront, hregistered, List.length_take_of_le (by omega), ?_⟩
      rw [← hchecksum, List.append_assoc, List.take_append_drop]
      exact hdata
    case isFalse => cases h
  · rintro ⟨front, format, hfront, hregistered, hlength, hdata⟩
    have hbody : (front ++ key).length = front.length + 32 := by
      rw [List.length_append, hlength]
    refine ⟨_, hdata, (format, front.length), ?_, ?_⟩
    · rw [List.append_assoc]
      apply format?_of_prefixes hfront
      intro hnil
      simp [(List.append_eq_nil_iff.mp hnil).1] at hlength
    · simp only [← hbody, List.take_left, List.drop_left]
      rw [if_pos]
      refine ⟨?_, hregistered, trivial⟩
      rw [List.length_append, hbody, length_checksum]

/-- The address of an account in a registered format names its key. -/
theorem addresses_encode {format : Nat} (h : format % 2 ^ 14 ∈ registered)
    (account : Vector UInt8 32) : Addresses (encode format account) account.toList :=
  ⟨formatBytes format, format % 2 ^ 14, prefixes_formatBytes format, h, by simp,
    Base58.decode?_encode _⟩

/-! What every address is written in. -/

theorem length_of_prefixes {front : Bytes} {format : Nat} (h : Prefixes front format) :
    0 < front.length := by
  cases h <;> simp

/-- An address has a letter for each of its bytes at least, of which the
key and the checksum take 34. -/
theorem length_of_addresses {text : String} {key : Bytes} (h : Addresses text key) :
    35 ≤ text.toList.length := by
  obtain ⟨front, format, hfront, -, hlength, hdata⟩ := h
  have hbytes := Base58.length_of_decode? hdata
  have hpositive := length_of_prefixes hfront
  rw [List.length_append, List.length_append, length_checksum, hlength] at hbytes
  omega

theorem mem_alphabet_of_addresses {text : String} {key : Bytes} (h : Addresses text key) :
    ∀ c ∈ text.toList, c ∈ Base58.alphabet := by
  obtain ⟨_, _, _, _, _, hdata⟩ := h
  exact Base58.mem_alphabet_of_decode? hdata

end ChainClient.Ss58

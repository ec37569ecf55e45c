import ChainClient.Hex
import ChainClient.Proofs.Outcome
import ChainClient.Proofs.Text.Utf8

/-! Hexadecimal text is read as the bytes whose digits it
consists of, in either letter case. -/

namespace ChainClient.Hex

/-- The text consists of the digits of these bytes, in either letter case. -/
def Spells (text : List Char) (bytes : Bytes) : Prop :=
  text.map Char.toLower = digits bytes

@[simp] theorem digits_nil : digits [] = [] := rfl

theorem digits_cons (byte : UInt8) (rest : Bytes) :
    digits (byte :: rest) =
      digit (byte.toNat / 16) :: digit (byte.toNat % 16) :: digits rest := rfl

theorem length_digits (bytes : Bytes) : (digits bytes).length = 2 * bytes.length := by
  induction bytes with
  | nil => rfl
  | cons byte rest ih =>
      rw [digits_cons, List.length_cons, List.length_cons, List.length_cons, ih]
      omega

theorem mem_digits {bytes : Bytes} {c : Char} (h : c ∈ digits bytes) :
    ∃ value, value < 16 ∧ c = digit value := by
  obtain ⟨byte, -, hc⟩ := List.mem_flatMap.mp h
  have hbyte := byte.toNat_lt
  rcases List.mem_cons.mp hc with rfl | hc
  · exact ⟨byte.toNat / 16, by omega, rfl⟩
  · exact ⟨byte.toNat % 16, by omega, List.mem_singleton.mp hc⟩

/-! One digit. -/

theorem digit_lower {value : Nat} (h : value < 16) :
    (digit value).toLower = digit value ∧ (digit value).toNat < 128 := by
  revert h
  revert value
  decide

theorem toNat_le_toLower (c : Char) : c.toNat ≤ c.toLower.toNat := by
  unfold Char.toLower
  split
  case isTrue h =>
    have hhigh : c.val.toNat ≤ 90 := h.2
    change c.val.toNat ≤ (c.val + 32).toNat
    rw [UInt32.toNat_add]
    have h32 : (32 : UInt32).toNat = 32 := rfl
    omega
  case isFalse => exact Nat.le_refl _

theorem value?_lt {byte : UInt8} {value : Nat} (h : value? byte = some value) :
    value < 16 ∧ byte.toNat < 128 := by
  simp only [value?] at h
  split at h
  case isTrue => cases h; omega
  case isFalse =>
    split at h
    case isTrue => cases h; omega
    case isFalse =>
      split at h
      case isTrue => cases h; omega
      case isFalse => cases h

theorem value?_eq_some {c : Char} (h : c.toNat < 128) {value : Nat} :
    value? (UInt8.ofNat c.toNat) = some value ↔ value < 16 ∧ c.toLower = digit value := by
  have hall : ∀ code < 128, ∀ value < 16,
      value? (UInt8.ofNat code) = some value ↔ (Char.ofNat code).toLower = digit value := by
    decide +kernel
  have hsame : value < 16 → (value? (UInt8.ofNat c.toNat) = some value ↔
      c.toLower = digit value) := by
    simpa using hall c.toNat h value
  constructor
  · intro hvalue
    exact ⟨(value?_lt hvalue).1, (hsame (value?_lt hvalue).1).mp hvalue⟩
  · rintro ⟨hlt, hdigit⟩
    exact (hsame hlt).mpr hdigit

theorem valueAt_eq_ok {position : Nat} {byte : UInt8} {value : Nat} :
    valueAt position byte = .ok value ↔ value? byte = some value := by
  rw [valueAt]
  cases value? byte <;> simp

/-! Text. -/

theorem decodePairs_cons_eq_ok {position : Nat} {high low : UInt8} {rest bytes : Bytes} :
    decodePairs position (high :: low :: rest) = .ok bytes ↔
      ∃ highValue lowValue others, value? high = some highValue ∧
        value? low = some lowValue ∧
        decodePairs (position + 2) rest = .ok others ∧
        bytes = UInt8.ofNat (16 * highValue + lowValue) :: others := by
  simp only [decodePairs, bind_eq_ok, valueAt_eq_ok, pure, Except.pure, Except.ok.injEq]
  grind

theorem lt_of_decodePairs {position : Nat} {raw bytes : Bytes} (heven : raw.length % 2 = 0)
    (h : decodePairs position raw = .ok bytes) : ∀ byte ∈ raw, byte.toNat < 128 := by
  match raw with
  | [] => nofun
  | [_] => cases heven
  | high :: low :: rest =>
      obtain ⟨highValue, lowValue, others, hhigh, hlow, hrest, -⟩ :=
        decodePairs_cons_eq_ok.mp h
      have heven : rest.length % 2 = 0 := by
        simp only [List.length_cons] at heven
        omega
      exact List.forall_mem_cons.mpr ⟨(value?_lt hhigh).2,
        List.forall_mem_cons.mpr ⟨(value?_lt hlow).2, lt_of_decodePairs heven hrest⟩⟩

theorem spells_nil {bytes : Bytes} : Spells [] bytes ↔ bytes = [] := by
  cases bytes with
  | nil => exact iff_of_true rfl rfl
  | cons byte rest => exact iff_of_false nofun nofun

theorem spells_cons {high low : Char} {rest : List Char} {bytes : Bytes} :
    Spells (high :: low :: rest) bytes ↔
      ∃ highValue lowValue others, (highValue < 16 ∧ high.toLower = digit highValue) ∧
        (lowValue < 16 ∧ low.toLower = digit lowValue) ∧ Spells rest others ∧
        bytes = UInt8.ofNat (16 * highValue + lowValue) :: others := by
  constructor
  · intro h
    cases bytes with
    | nil => cases h
    | cons byte others =>
        have hbyte := byte.toNat_lt
        have hsum : 16 * (byte.toNat / 16) + byte.toNat % 16 = byte.toNat := by omega
        obtain ⟨hhigh, h⟩ := List.cons.inj h
        obtain ⟨hlow, hrest⟩ := List.cons.inj h
        refine ⟨byte.toNat / 16, byte.toNat % 16, others, ⟨by omega, hhigh⟩,
          ⟨by omega, hlow⟩, hrest, ?_⟩
        rw [hsum, UInt8.ofNat_toNat]
  · rintro ⟨highValue, lowValue, others, ⟨hhigh, high⟩, ⟨hlow, low⟩, hrest, rfl⟩
    have hbyte : (UInt8.ofNat (16 * highValue + lowValue)).toNat =
        16 * highValue + lowValue :=
      Nat.mod_eq_of_lt (by omega)
    have hquotient : (16 * highValue + lowValue) / 16 = highValue := by omega
    have hremainder : (16 * highValue + lowValue) % 16 = lowValue := by omega
    rw [Spells, digits_cons, hbyte, hquotient, hremainder]
    exact List.cons_eq_cons.mpr ⟨high, List.cons_eq_cons.mpr ⟨low, hrest⟩⟩

theorem lt_of_spells {text : List Char} {bytes : Bytes} (h : Spells text bytes) :
    ∀ c ∈ text, c.toNat < 128 := by
  intro c hc
  have hlower : c.toLower ∈ digits bytes := h ▸ List.mem_map_of_mem hc
  obtain ⟨value, hvalue, hdigit⟩ := mem_digits hlower
  have hle := toNat_le_toLower c
  rw [hdigit] at hle
  exact Nat.lt_of_le_of_lt hle (digit_lower hvalue).2

theorem length_of_spells {text : List Char} {bytes : Bytes} (h : Spells text bytes) :
    text.length = 2 * bytes.length := by
  rw [← length_digits, ← h, List.length_map]

theorem spells_digits (bytes : Bytes) : Spells (digits bytes) bytes := by
  have hlower : (digits bytes).map Char.toLower = (digits bytes).map id := by
    apply List.map_congr_left
    intro c hc
    obtain ⟨value, hvalue, rfl⟩ := mem_digits hc
    exact (digit_lower hvalue).1
  rw [Spells, hlower, List.map_id]

/-- Pairs of bytes that are digits are read as the characters spell them. -/
theorem decodePairs_eq_ok {position : Nat} {text : List Char} {bytes : Bytes}
    (hascii : ∀ c ∈ text, c.toNat < 128) (heven : text.length % 2 = 0) :
    decodePairs position (text.map fun c => UInt8.ofNat c.toNat) = .ok bytes ↔
      Spells text bytes := by
  match text with
  | [] =>
      rw [spells_nil, List.map_nil, decodePairs, Except.ok.injEq, eq_comm]
      nofun
  | [_] => cases heven
  | high :: low :: rest =>
      obtain ⟨hhigh, hascii⟩ := List.forall_mem_cons.mp hascii
      obtain ⟨hlow, hascii⟩ := List.forall_mem_cons.mp hascii
      have heven : rest.length % 2 = 0 := by
        simp only [List.length_cons] at heven
        omega
      simp only [List.map_cons, decodePairs_cons_eq_ok, spells_cons, value?_eq_some hhigh,
        value?_eq_some hlow, decodePairs_eq_ok hascii heven]

theorem decode_eq_ok {text : String} {bytes : Bytes} :
    decode text = .ok bytes ↔ Spells text.toList bytes := by
  obtain ⟨chars, rfl⟩ : ∃ chars, text = String.ofList chars :=
    ⟨text.toList, String.ofList_toList.symm⟩
  rw [decode, decodeBytes, String.toList_ofList]
  constructor
  · intro h
    split at h
    case isTrue => cases h
    case isFalse hodd =>
      have hascii := Bytes.lt_of_ofString_lt (lt_of_decodePairs (by omega) h)
      rw [Bytes.ofString_ofList_of_lt hascii] at h hodd
      rw [List.length_map] at hodd
      exact (decodePairs_eq_ok hascii (by omega)).mp h
  · intro h
    have hlength := length_of_spells h
    rw [Bytes.ofString_ofList_of_lt (lt_of_spells h), List.length_map, if_neg (by omega)]
    exact (decodePairs_eq_ok (lt_of_spells h) (by omega)).mpr h

@[simp] theorem decode_encode (bytes : Bytes) : decode (encode bytes) = .ok bytes := by
  rw [decode_eq_ok, encode, String.toList_ofList]
  exact spells_digits bytes

theorem decode?_eq_some {text : String} {bytes : Bytes} :
    decode? text = some bytes ↔ Spells text.toList bytes := by
  rw [decode?, ← decode_eq_ok]
  refine ⟨ok_of_toOption, fun h => ?_⟩
  rw [h]
  rfl

theorem decode0x?_eq_some {text : String} {bytes : Bytes} :
    decode0x? text = some bytes ↔
      ∃ digits, text.toList = '0' :: 'x' :: digits ∧ Spells digits bytes := by
  rw [decode0x?]
  split
  case h_1 rest hmarked =>
    rw [decode?_eq_some, String.toList_ofList, hmarked]
    constructor
    · exact fun h => ⟨rest, rfl, h⟩
    · rintro ⟨digits, ⟨⟩, h⟩
      exact h
  case h_2 hunmarked =>
    refine iff_of_false nofun ?_
    rintro ⟨digits, hmarked, -⟩
    exact hunmarked digits hmarked

@[simp] theorem decode0x?_encode0x (bytes : Bytes) :
    decode0x? (encode0x bytes) = some bytes :=
  decode0x?_eq_some.mpr ⟨digits bytes, by simp [encode0x, encode], spells_digits bytes⟩

end ChainClient.Hex

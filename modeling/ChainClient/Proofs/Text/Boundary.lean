import ChainClient.BlockHash
import ChainClient.Metadata.Basic
import ChainClient.Proofs.Cache.Metadata
import ChainClient.Proofs.Codec.Descriptor
import ChainClient.Proofs.Text.Hex

/-! Hexadecimal text that comes in from outside: metadata, which has one form only, and
hashes of blocks, which may have either letter case and lack the marker. -/

namespace ChainClient

namespace Hex

/-- A digit of either letter case. -/
def IsDigit (c : Char) : Prop :=
  ('0' ≤ c ∧ c ≤ '9') ∨ ('a' ≤ c ∧ c ≤ 'f') ∨ ('A' ≤ c ∧ c ≤ 'F')

instance : DecidablePred IsDigit :=
  fun _ => inferInstanceAs (Decidable (_ ∨ _))

/-- Bytes that are no pairs of digits. -/
def Malformed (raw : Bytes) : Prop :=
  raw.length % 2 = 1 ∨ ∃ byte ∈ raw, ¬ IsDigit (Char.ofNat byte.toNat)

instance (raw : Bytes) : Decidable (Malformed raw) :=
  inferInstanceAs (Decidable (_ ∨ _))

/-- A property of the characters of one byte, checked one by one. -/
theorem forall_ascii {P : Char → Prop} (h : ∀ code < 128, P (Char.ofNat code)) {c : Char}
    (hc : c.toNat < 128) : P c := by
  have hcode := h c.toNat hc
  rwa [Char.ofNat_toNat] at hcode

theorem lt_of_isDigit {c : Char} (h : IsDigit c) : c.toNat < 128 := by
  have hbound : c ≤ '9' ∨ c ≤ 'f' ∨ c ≤ 'F' := h.imp And.right (Or.imp And.right And.right)
  rcases hbound with hle | hle | hle
  · exact Nat.lt_of_le_of_lt hle (by decide)
  · exact Nat.lt_of_le_of_lt hle (by decide)
  · exact Nat.lt_of_le_of_lt hle (by decide)

theorem isDigit_iff {c : Char} :
    IsDigit c ↔ ∃ value, value < 16 ∧ c.toLower = digit value := by
  have hsame (hascii : c.toNat < 128) :
      IsDigit c ↔ ∃ value, value < 16 ∧ c.toLower = digit value :=
    forall_ascii (P := fun c => IsDigit c ↔ ∃ value, value < 16 ∧ c.toLower = digit value)
      (by decide +kernel) hascii
  constructor
  · intro h
    exact (hsame (lt_of_isDigit h)).mp h
  · rintro ⟨value, hvalue, hlower⟩
    have hle := toNat_le_toLower c
    rw [hlower] at hle
    exact (hsame (Nat.lt_of_le_of_lt hle (digit_lower hvalue).2)).mpr
      ⟨value, hvalue, hlower⟩

theorem exists_spells_iff (text : List Char) :
    (∃ bytes, Spells text bytes) ↔ text.length % 2 = 0 ∧ ∀ c ∈ text, IsDigit c := by
  match text with
  | [] => exact iff_of_true ⟨[], rfl⟩ ⟨rfl, nofun⟩
  | [single] =>
      refine iff_of_false ?_ nofun
      rintro ⟨bytes, hspells⟩
      have hlength := length_of_spells hspells
      rw [List.length_singleton] at hlength
      omega
  | high :: low :: rest =>
      have ih := exists_spells_iff rest
      have hlength : (high :: low :: rest).length % 2 = rest.length % 2 :=
        Nat.add_mod_right rest.length 2
      rw [hlength, List.forall_mem_cons, List.forall_mem_cons, isDigit_iff, isDigit_iff]
      constructor
      · rintro ⟨bytes, hspells⟩
        obtain ⟨highValue, lowValue, others, hhigh, hlow, hrest, -⟩ :=
          spells_cons.mp hspells
        obtain ⟨heven, hdigits⟩ := ih.mp ⟨others, hrest⟩
        exact ⟨heven, ⟨highValue, hhigh⟩, ⟨lowValue, hlow⟩, hdigits⟩
      · rintro ⟨heven, ⟨highValue, hhigh⟩, ⟨lowValue, hlow⟩, hdigits⟩
        obtain ⟨others, hrest⟩ := ih.mpr ⟨heven, hdigits⟩
        exact ⟨_, spells_cons.mpr ⟨highValue, lowValue, others, hhigh, hlow, hrest, rfl⟩⟩

/-! Characters and bytes of a text. -/

theorem ofNat_of_lt {c : Char} (h : c.toNat < 128) :
    Char.ofNat (UInt8.ofNat c.toNat).toNat = c := by
  rw [UInt8.toNat_ofNat', Nat.mod_eq_of_lt (by omega), Char.ofNat_toNat]

theorem lt_of_isDigit_byte {byte : UInt8} (h : IsDigit (Char.ofNat byte.toNat)) :
    byte.toNat < 128 := by
  have hall : ∀ code < 256, IsDigit (Char.ofNat code) → code < 128 := by
    decide +kernel
  exact hall byte.toNat byte.toNat_lt h

theorem forall_byte_iff (text : List Char) :
    (∀ byte ∈ Bytes.ofString (String.ofList text), IsDigit (Char.ofNat byte.toNat)) ↔
      ∀ c ∈ text, IsDigit c := by
  have hsame (hascii : ∀ c ∈ text, c.toNat < 128) :
      (∀ byte ∈ Bytes.ofString (String.ofList text), IsDigit (Char.ofNat byte.toNat)) ↔
        ∀ c ∈ text, IsDigit c := by
    rw [Bytes.ofString_ofList_of_lt hascii, List.forall_mem_map]
    exact forall₂_congr fun c hc => by rw [ofNat_of_lt (hascii c hc)]
  constructor
  · intro h
    have hascii :=
      Bytes.lt_of_ofString_lt fun byte hbyte => lt_of_isDigit_byte (h byte hbyte)
    exact (hsame hascii).mp h
  · intro h
    exact (hsame fun c hc => lt_of_isDigit (h c hc)).mpr h

theorem length_ofString_of_digits {text : List Char} (h : ∀ c ∈ text, IsDigit c) :
    (Bytes.ofString (String.ofList text)).length = text.length := by
  rw [Bytes.ofString_ofList_of_lt fun c hc => lt_of_isDigit (h c hc), List.length_map]

theorem malformed_iff (text : List Char) :
    Malformed (Bytes.ofString (String.ofList text)) ↔ ¬ ∃ bytes, Spells text bytes := by
  rw [exists_spells_iff, Malformed]
  by_cases hdigits : ∀ c ∈ text, IsDigit c
  · have hbytes := (forall_byte_iff text).mpr hdigits
    rw [length_ofString_of_digits hdigits]
    constructor
    · rintro (hodd | ⟨byte, hbyte, hstray⟩)
      · omega
      · exact absurd (hbytes byte hbyte) hstray
    · intro h
      have hodd : text.length % 2 ≠ 0 := fun heven => h ⟨heven, hdigits⟩
      exact .inl (by omega)
  · refine iff_of_true (.inr ?_) fun h => hdigits h.2
    rw [← forall_byte_iff] at hdigits
    simpa using hdigits

theorem decode_fails_iff (text : String) :
    (∃ cause, decode text = .error cause) ↔ Malformed (Bytes.ofString text) := by
  have htext : String.ofList text.toList = text := String.ofList_toList
  rw [← htext, malformed_iff, htext]
  cases h : decode text with
  | error cause =>
      refine iff_of_true ⟨cause, rfl⟩ ?_
      rintro ⟨bytes, hspells⟩
      rw [decode_eq_ok.mpr hspells] at h
      cases h
  | ok bytes => exact iff_of_false nofun fun hnone => hnone ⟨bytes, decode_eq_ok.mp h⟩

theorem length_of_decode {text : String} {bytes : Bytes} (h : decode text = .ok bytes) :
    (Bytes.ofString text).length = 2 * bytes.length := by
  have hspells := decode_eq_ok.mp h
  have hdigits := ((exists_spells_iff text.toList).mp ⟨bytes, hspells⟩).2
  have hlength := length_ofString_of_digits hdigits
  rw [String.ofList_toList] at hlength
  rw [hlength, length_of_spells hspells]

end Hex

open Hex

/-! Metadata. -/

theorem isLowerHexDigit_digit {value : Nat} (h : value < 16) :
    isLowerHexDigit (digit value) = true := by
  revert h
  revert value
  decide

theorem toLower_of_isLowerHexDigit {c : Char} (h : isLowerHexDigit c = true) :
    c.toLower = c := by
  have hascii : c.toNat < 128 := by
    simp only [isLowerHexDigit, Bool.or_eq_true, Bool.and_eq_true, decide_eq_true_eq] at h
    omega
  exact forall_ascii (P := fun c => isLowerHexDigit c = true → c.toLower = c)
    (by decide +kernel)
    hascii h

theorem toList_encode0x (bytes : Bytes) :
    (encode0x bytes).toList = '0' :: 'x' :: digits bytes := by
  simp [encode0x, encode]

/-- Of lowercase text only the digits of its bytes are left. -/
theorem spells_lower {text : List Char} {bytes : Bytes}
    (h : text.all isLowerHexDigit = true) : Spells text bytes ↔ text = digits bytes := by
  have hlower : text.map Char.toLower = text.map id :=
    List.map_congr_left fun c hc => toLower_of_isLowerHexDigit (List.all_eq_true.mp h c hc)
  rw [Spells, hlower, List.map_id]

theorem metadataBytes_eq_ok {text : String} {bytes : Bytes} :
    metadataBytes text = .ok bytes ↔ bytes ≠ [] ∧ text = encode0x bytes := by
  rw [← String.toList_inj, toList_encode0x, metadataBytes]
  split
  case h_1 first rest hmarked =>
    rw [hmarked]
    split
    case isTrue hall =>
      rw [mapError_eq_ok, decode_eq_ok, String.toList_ofList, spells_lower hall]
      constructor
      · intro hdigits
        refine ⟨?_, by rw [hdigits]⟩
        rintro rfl
        cases hdigits
      · rintro ⟨-, hdigits⟩
        exact (List.cons.inj (List.cons.inj hdigits).2).2
    case isFalse hall =>
      refine iff_of_false nofun ?_
      rintro ⟨-, hdigits⟩
      obtain ⟨-, hdigits⟩ := List.cons.inj hdigits
      obtain ⟨-, hdigits⟩ := List.cons.inj hdigits
      apply hall
      rw [hdigits]
      refine List.all_eq_true.mpr fun c hc => ?_
      obtain ⟨value, hvalue, rfl⟩ := mem_digits hc
      exact isLowerHexDigit_digit hvalue
  case h_2 hunmarked =>
    refine iff_of_false nofun ?_
    rintro ⟨hbytes, hdigits⟩
    cases bytes with
    | nil => exact hbytes rfl
    | cons byte rest => exact hunmarked _ _ hdigits

theorem metadataBytes_eq_error {text : String} {error : MetadataError}
    (h : metadataBytes text = .error error) : error = .malformed := by
  unfold metadataBytes at h
  split at h
  case h_1 =>
    split at h
    case isTrue =>
      obtain ⟨-, -, rfl⟩ := mapError_eq_error.mp h
      rfl
    case isFalse =>
      cases h
      rfl
  case h_2 =>
    cases h
    rfl

/-! Hashes of blocks. -/

namespace BlockHash

theorem ofBytes?_eq_some {bytes : Bytes} {hash : BlockHash} :
    ofBytes? bytes = some hash ↔ bytes = hash.bytes.toList := by
  rw [ofBytes?]
  constructor
  · intro h
    split at h
    case isTrue =>
      cases h
      rfl
    case isFalse => cases h
  · rintro rfl
    rw [dif_pos hash.bytes.length_toList]
    rfl

theorem ofBytes?_eq_none {bytes : Bytes} : ofBytes? bytes = none ↔ bytes.length ≠ 32 := by
  rw [ofBytes?]
  split
  case isTrue h => exact iff_of_false nofun fun hne => hne h
  case isFalse h => exact iff_of_true rfl h

variable {text : String} {hash : BlockHash}

/-- The bytes of the digits are a hash if there are 32 of them. -/
theorem parse_cases (text : String) :
    (∃ cause, decode (withoutMarker text) = .error cause ∧
      parse text = .error (.invalidHex (withoutMarker text) cause)) ∨
    (∃ bytes, decode (withoutMarker text) = .ok bytes ∧ bytes.length ≠ 32 ∧
      parse text = .error (.invalidLength bytes.length)) ∨
    ∃ hash, decode (withoutMarker text) = .ok hash.bytes.toList ∧
      parse text = .ok hash := by
  simp only [parse]
  cases decode (withoutMarker text) with
  | error cause => exact .inl ⟨cause, rfl, rfl⟩
  | ok bytes =>
      cases hhash : ofBytes? bytes with
      | none =>
          exact .inr (.inl ⟨bytes, rfl, ofBytes?_eq_none.mp hhash, by simp only [hhash]⟩)
      | some hash =>
          obtain rfl := ofBytes?_eq_some.mp hhash
          exact .inr (.inr ⟨hash, rfl, by simp only [hhash]⟩)

theorem parse_eq_ok :
    parse text = .ok hash ↔ Spells (withoutMarker text).toList hash.bytes.toList := by
  rw [← decode_eq_ok]
  rcases parse_cases text with
    ⟨cause, hdecode, hparse⟩ | ⟨bytes, hdecode, hlength, hparse⟩ | ⟨found, hdecode, hparse⟩
  · rw [hdecode, hparse]
    exact iff_of_false nofun nofun
  · rw [hdecode, hparse]
    refine iff_of_false nofun fun h => hlength ?_
    rw [Except.ok.inj h, hash.bytes.length_toList]
  · rw [hdecode, hparse, Except.ok.injEq, Except.ok.injEq]
    constructor
    · rintro rfl
      rfl
    · intro h
      have hfound := ofBytes?_eq_some.mpr (rfl : found.bytes.toList = found.bytes.toList)
      rw [ofBytes?_eq_some.mpr h] at hfound
      exact (Option.some.inj hfound).symm

theorem parse_succeeds_iff :
    (∃ hash, parse text = .ok hash) ↔
      (withoutMarker text).toList.length = 64 ∧
        ∀ c ∈ (withoutMarker text).toList, IsDigit c := by
  constructor
  · rintro ⟨hash, hparse⟩
    have hspells := parse_eq_ok.mp hparse
    have hlength := length_of_spells hspells
    rw [hash.bytes.length_toList] at hlength
    exact ⟨hlength, ((exists_spells_iff _).mp ⟨_, hspells⟩).2⟩
  · rintro ⟨hlength, hdigits⟩
    obtain ⟨bytes, hspells⟩ := (exists_spells_iff _).mpr ⟨by rw [hlength], hdigits⟩
    have hbytes : bytes.length = 32 := by
      have := length_of_spells hspells
      omega
    exact ⟨⟨⟨bytes.toArray, hbytes⟩⟩, parse_eq_ok.mpr hspells⟩

theorem parse_eq_invalidHex {cause : HexError} :
    parse text = .error (.invalidHex (withoutMarker text) cause) ↔
      decode (withoutMarker text) = .error cause := by
  rcases parse_cases text with
    ⟨found, hdecode, hparse⟩ | ⟨bytes, hdecode, hlength, hparse⟩ | ⟨found, hdecode, hparse⟩
  · rw [hdecode, hparse]
    simp
  · rw [hdecode, hparse]
    exact iff_of_false nofun nofun
  · rw [hdecode, hparse]
    exact iff_of_false nofun nofun

theorem parse_eq_invalidLength {length : Nat} :
    parse text = .error (.invalidLength length) ↔
      ∃ bytes, decode (withoutMarker text) = .ok bytes ∧ bytes.length = length ∧
        length ≠ 32 := by
  rcases parse_cases text with
    ⟨found, hdecode, hparse⟩ | ⟨bytes, hdecode, hlength, hparse⟩ | ⟨found, hdecode, hparse⟩
  · rw [hdecode, hparse]
    exact iff_of_false nofun nofun
  · rw [hdecode, hparse]
    constructor
    · intro h
      cases h
      exact ⟨bytes, rfl, rfl, hlength⟩
    · rintro ⟨others, hothers, rfl, -⟩
      rw [Except.ok.inj hothers]
  · rw [hdecode, hparse]
    refine iff_of_false nofun ?_
    rintro ⟨others, hothers, rfl, hne⟩
    rw [← Except.ok.inj hothers] at hne
    exact hne found.bytes.length_toList

theorem withoutMarker_encode0x (bytes : Bytes) :
    withoutMarker (encode0x bytes) = encode bytes := by
  rw [withoutMarker, toList_encode0x]
  rfl

theorem parse_render (hash : BlockHash) : parse hash.render = .ok hash := by
  rw [parse_eq_ok, render, withoutMarker_encode0x, encode, String.toList_ofList]
  exact spells_digits hash.bytes.toList

theorem render_of_spells {digits : String} (h : Spells digits.toList hash.bytes.toList) :
    hash.render = "0x" ++ String.ofList (digits.toList.map Char.toLower) := by
  rw [render, encode0x, encode, h]

theorem encode_toValue {registry : TypeRegistry} {id element : TypeId}
    (hid : registry.get? id = some (.list element (some 32)))
    (helement : registry.get? element = some (.primitive .u8)) (hash : BlockHash) :
    Codec.encode registry id hash.toValue = .ok hash.bytes.toList := by
  have hbyte : registry.isByte element = true := by
    simp [TypeRegistry.isByte, helement]
  rw [Codec.encode, Codec.maxDepth, toValue, Value.ofBytes,
    Codec.encodeWithin_bytes hid hbyte, Codec.encodeByteList_eq_ok]
  refine ⟨hash.bytes.toList, [], decode0x?_encode0x _, ?_, rfl, rfl⟩
  rw [hash.bytes.length_toList]
  rfl

end BlockHash

open BlockHash

/-- What a text from outside is taken for as metadata and as the hash of a block. -/
structure ReadExactly (text : String) : Prop where
  /-- Text and bytes of metadata determine each other. -/
  metadata : ∀ bytes, metadataBytes text = .ok bytes ↔ bytes ≠ [] ∧ text = encode0x bytes
  malformed : (∀ bytes, bytes ≠ [] → text ≠ encode0x bytes) →
    metadataBytes text = .error .malformed
  /-- A blob that was filed is found as the text it was, and read as the same bytes. -/
  filed : ∀ bytes store after implName specVersion, metadataBytes text = .ok bytes →
    MetadataCache.replace store implName specVersion text = (after, .ok ()) →
    ∃ found, MetadataCache.get? after implName specVersion = some found ∧
      metadataBytes found = .ok bytes
  hash : (∃ hash, parse text = .ok hash) ↔
    (withoutMarker text).toList.length = 64 ∧ ∀ c ∈ (withoutMarker text).toList, IsDigit c
  shown : ∀ hash, parse text = .ok hash →
    hash.render = "0x" ++ String.ofList ((withoutMarker text).toList.map Char.toLower)
  reread : ∀ hash, parse text = .ok hash → parse hash.render = .ok hash
  /-- As a list of 32 bytes a hash is written as its bytes. -/
  written : ∀ hash, parse text = .ok hash →
    ∀ (registry : TypeRegistry) (id element : TypeId),
    registry.get? id = some (.list element (some 32)) →
    registry.get? element = some (.primitive .u8) →
    Codec.encode registry id hash.toValue = .ok hash.bytes.toList
  invalidHex : (∃ cause, parse text = .error (.invalidHex (withoutMarker text) cause)) ↔
    Malformed (Bytes.ofString (withoutMarker text))
  invalidLength : ∀ length, parse text = .error (.invalidLength length) ↔
    ¬ Malformed (Bytes.ofString (withoutMarker text)) ∧
      (Bytes.ofString (withoutMarker text)).length = 2 * length ∧ length ≠ 32

theorem hexadecimal_read_exactly (text : String) : ReadExactly text where
  metadata _ := metadataBytes_eq_ok
  malformed hnone := by
    cases h : metadataBytes text with
    | ok bytes =>
        obtain ⟨hbytes, htext⟩ := metadataBytes_eq_ok.mp h
        exact absurd htext (hnone bytes hbytes)
    | error error => rw [metadataBytes_eq_error h]
  filed bytes store after implName specVersion hbytes hfiled :=
    ⟨text, MetadataCache.get?_of_replace hfiled, hbytes⟩
  hash := parse_succeeds_iff
  shown hash hparse := render_of_spells (parse_eq_ok.mp hparse)
  reread hash _ := parse_render hash
  written hash _ registry id element hid helement := encode_toValue hid helement hash
  invalidHex := by
    rw [← decode_fails_iff]
    exact exists_congr fun cause => parse_eq_invalidHex
  invalidLength length := by
    rw [parse_eq_invalidLength, ← decode_fails_iff]
    constructor
    · rintro ⟨bytes, hdecode, rfl, hne⟩
      refine ⟨?_, length_of_decode hdecode, hne⟩
      rintro ⟨cause, hcause⟩
      rw [hdecode] at hcause
      cases hcause
    · rintro ⟨hread, hlength, hne⟩
      cases hdecode : decode (withoutMarker text) with
      | error cause => exact absurd ⟨cause, hdecode⟩ hread
      | ok bytes =>
          have htwice := length_of_decode hdecode
          exact ⟨bytes, rfl, by omega, hne⟩

/-- A hash in both letter cases, one marker too many, and too
few digits without a marker. -/
theorem hexadecimal_read_exactly_mixed :
    metadataBytes "0x6d657461" = .ok [0x6d, 0x65, 0x74, 0x61] ∧
        (∃ hash,
          parse "0xE143f23803ac50e8f6f8e62695d1ce9e4e1d68aa36c1cd2cfd15340213f3423E" =
              .ok hash ∧
            hash.render =
              "0xe143f23803ac50e8f6f8e62695d1ce9e4e1d68aa36c1cd2cfd15340213f3423e") ∧
      (∃ cause, parse "0x0x00" = .error (.invalidHex "0x00" cause)) ∧
      parse "1234" = .error (.invalidLength 2) := by
  have hmetadata :=
    (hexadecimal_read_exactly "0x6d657461").metadata [0x6d, 0x65, 0x74, 0x61]
  have hmixed := hexadecimal_read_exactly
    "0xE143f23803ac50e8f6f8e62695d1ce9e4e1d68aa36c1cd2cfd15340213f3423E"
  have hdigits : (withoutMarker
      "0xE143f23803ac50e8f6f8e62695d1ce9e4e1d68aa36c1cd2cfd15340213f3423E").toList.all
        (fun c => decide (IsDigit c)) = true := by
    decide +kernel
  obtain ⟨hash, hparse⟩ := hmixed.hash.mpr ⟨by decide +kernel,
    fun c hc => of_decide_eq_true (List.all_eq_true.mp hdigits c hc)⟩
  have hshown := hmixed.shown hash hparse
  have htwice : withoutMarker "0x0x00" = "0x00" := by decide +kernel
  have hstray := (hexadecimal_read_exactly "0x0x00").invalidHex
  rw [htwice] at hstray
  have hshort := (hexadecimal_read_exactly "1234").invalidLength 2
  refine ⟨hmetadata.mpr ⟨by decide, by decide +kernel⟩, ⟨hash, hparse, ?_⟩,
    hstray.mpr (by decide +kernel), hshort.mpr (by decide +kernel)⟩
  rw [hshown]
  decide +kernel

end ChainClient

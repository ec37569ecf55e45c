import ChainClient.Proofs.Codec.Integers
import ChainClient.Proofs.Codec.Reentry

/-! The forms that one value can be given in are written alike. -/

namespace ChainClient.Codec

variable {registry : TypeRegistry} {budget : Nat} {id element : TypeId}

/-! Structs. -/

theorem encodeWithin_struct_positions {fields : List Field}
    (hid : registry.get? id = some (.struct fields)) {values : List Value}
    (hlength : values.length = fields.length) :
    encodeWithin registry (budget + 1) (.sequence values) id =
      encodeFields (encodeWithin registry budget) fields values := by
  simp only [encodeWithin, resolve, hid, ok_bind, if_pos hlength]
  rfl

/-! Bytes. -/

theorem encodeWithin_byte (helement : registry.get? element = some (.primitive .u8))
    {byte : UInt8} {item : Value} (hitem : item.IsInteger byte.toNat) :
    encodeWithin registry (budget + 1) item element = .ok [byte] := by
  have hbyte := byte.toNat_lt
  have hfits : Fits .u8 byte.toNat := by
    simp only [Fits, Primitive.u8, Bool.false_eq_true, if_false]
    omega
  have hself : [byte] = Bytes.ofNatLE 1 ((byte.toNat : Int) % 2 ^ 8).toNat := by
    rw [Int.emod_eq_of_lt (by omega) (by omega), Int.toNat_natCast, Bytes.ofNatLE_succ,
      UInt8.ofNat_toNat, Bytes.ofNatLE_zero]
  rw [encodeWithin_primitive helement]
  exact encodePrimitive_eq_ok.mpr
    ⟨1, byte.toNat, rfl, toInt?_eq_some.mpr hitem, hfits, hself⟩

theorem encodeEach_bytes (helement : registry.get? element = some (.primitive .u8))
    {raw : Bytes} {items : List Value}
    (hitems : List.Forall₂ (fun byte item => item.IsInteger byte.toNat) raw items) :
    encodeEach (encodeWithin registry (budget + 1) · element) items = .ok raw := by
  induction hitems with
  | nil => rfl
  | cons hitem _ ih =>
      exact encodeEach_cons_eq_ok.mpr ⟨_, _, encodeWithin_byte helement hitem, ih, rfl⟩

theorem encodeWithin_bytes_forms {length? : Option Nat}
    (hid : registry.get? id = some (.list element length?))
    (helement : registry.get? element = some (.primitive .u8)) {digits : String}
    {raw : Bytes} (hdigits : Hex.Spells digits.toList raw) {items : List Value}
    (hitems : List.Forall₂ (fun byte item => item.IsInteger byte.toNat) raw items)
    {written : Bytes} :
    encodeWithin registry (budget + 2) (.string ("0x" ++ digits)) id = .ok written ↔
      encodeWithin registry (budget + 2) (.sequence items) id = .ok written := by
  have hbyte : registry.isByte element = true := by
    simp [TypeRegistry.isByte, helement]
  have hraw : Hex.decode0x? ("0x" ++ digits) = some raw :=
    Hex.decode0x?_eq_some.mpr ⟨digits.toList, by simp, hdigits⟩
  have hlength : raw.length = items.length := hitems.length_eq
  rw [encodeWithin_bytes hid hbyte, encodeByteList_eq_ok,
    encodeWithin_list_sequence_eq_ok hid, encodeEach_bytes helement hitems, ← hlength]
  constructor
  · rintro ⟨found, lengthBytes, hfound, hcheck, hlengthBytes, rfl⟩
    obtain rfl : raw = found := Option.some.inj (hraw.symm.trans hfound)
    exact ⟨lengthBytes, raw, checkLength_any hcheck, hlengthBytes, rfl, rfl⟩
  · rintro ⟨lengthBytes, bytes, hcheck, hlengthBytes, hbytes, rfl⟩
    obtain rfl := Except.ok.inj hbytes
    exact ⟨raw, lengthBytes, hraw, checkLength_any hcheck, hlengthBytes, rfl⟩

/-! Variants. -/

/-- A name that does not itself start like a qualified one
selects the variant of that name. -/
theorem variantNamed?_short {name : String} {variants : List Variant}
    (hnames : (variants.map Variant.name).Nodup) {variant : Variant}
    (hmem : variant ∈ variants) (hfields : variant.fields = [])
    (hshort : ¬ (name ++ "::").toList <+: variant.name.toList) :
    variantNamed? name variants variant.name = some variant := by
  have hunqualified :
      (name.toList ++ [':', ':']).isPrefixOf variant.name.toList = false := by
    rw [Bool.eq_false_iff, Ne, List.isPrefixOf_iff_prefix]
    simpa using hshort
  simp only [variantNamed?, hunqualified, Bool.false_eq_true, if_false]
  exact find?_named hnames hmem hfields

theorem encodeWithin_named {name : String} {variants : List Variant}
    (hid : registry.get? id = some (.enum name variants)) {variant : Variant}
    (hfields : variant.fields = []) {given : String}
    (hgiven : variantNamed? name variants given = some variant) :
    encodeWithin registry (budget + 1) (.string given) id = .ok [variant.index] := by
  refine (encodeWithin_enum_eq_ok hid).mpr ⟨variant, [], [], ?_, ?_, ?_, rfl⟩
  · rw [selectVariant, hgiven]
  · simp [hfields]
  · rw [hfields]
    rfl

/-- A struct is written alike from its entries by name and from its values by position,
bytes from their digits and from their integers, and a variant without fields from its name,
from its qualified name and from its number. -/
structure FormsAlike (registry : TypeRegistry) : Prop where
  struct : ∀ {id fields values entries others}, registry.get? id = some (.struct fields) →
    (fieldNames fields).Nodup → values.length = fields.length →
    entries.Perm ((fieldNames fields).zip values ++ others) →
    (∀ entry ∈ others, entry.1 ∉ fieldNames fields) →
      encode registry id (.composite entries) = encode registry id (.sequence values)
  bytes : ∀ {id element length? raw items} {digits : String},
    registry.get? id = some (.list element length?) →
    registry.get? element = some (.primitive .u8) → Hex.Spells digits.toList raw →
    List.Forall₂ (fun byte item => item.IsInteger byte.toNat) raw items →
      ∀ written, encode registry id (.string ("0x" ++ digits)) = .ok written ↔
        encode registry id (.sequence items) = .ok written
  variant : ∀ {id name variants variant}, registry.get? id = some (.enum name variants) →
    (variants.map Variant.index).Nodup → (variants.map Variant.name).Nodup →
    variant ∈ variants → variant.fields = [] →
    ¬ (name ++ "::").toList <+: variant.name.toList →
      encode registry id (.string variant.name) = .ok [variant.index] ∧
      encode registry id (.string (name ++ "::" ++ variant.name)) = .ok [variant.index] ∧
      ∀ given, encode registry id (.variant given variant.index []) = .ok [variant.index]

theorem forms_alike (registry : TypeRegistry) : FormsAlike registry where
  struct hid hnames hlength hentries hothers := by
    simp only [encode, maxDepth]
    rw [encodeWithin_struct_composite hid, encodeWithin_struct_positions hid hlength]
    exact encodeNamed_of_perm hnames hlength hentries hothers
  bytes hid helement hdigits hitems written :=
    encodeWithin_bytes_forms hid helement hdigits hitems
  variant hid hindices hnames hmem hfields hshort := by
    refine ⟨?_, ?_, fun given => ?_⟩
    · exact encodeWithin_named hid hfields (variantNamed?_short hnames hmem hfields hshort)
    · exact encodeWithin_named hid hfields (variantNamed?_of_nodup hnames hmem hfields)
    · apply encodeWithin_variant hid (find?_of_nodup hindices hmem)
      · simp [hfields]
      · rw [hfields]
        rfl

/-- A type of each kind that takes several forms. -/
def formsRegistry : TypeRegistry :=
  ⟨[(0, .primitive .u8), (1, .struct [⟨some "low", 0⟩, ⟨some "high", 0⟩]),
    (2, .list 0 (some 2)),
    (3, .enum "Side" [⟨0, "Left", []⟩, ⟨5, "Right", []⟩])]⟩

theorem forms_alike_small :
    encode formsRegistry 1
        (.composite [("high", .unsigned 9), ("other", .null), ("low", .unsigned 3)]) =
      encode formsRegistry 1 (.sequence [.unsigned 3, .unsigned 9]) ∧
    (encode formsRegistry 2 (.string ("0x" ++ "aB01")) = .ok [171, 1] ↔
      encode formsRegistry 2 (.sequence [.unsigned 171, .signed 1]) = .ok [171, 1]) ∧
    encode formsRegistry 3 (.string "Right") = .ok [5] ∧
    encode formsRegistry 3 (.string "Side::Right") = .ok [5] ∧
    encode formsRegistry 3 (.variant "Right" 5 []) = .ok [5] := by
  obtain ⟨hstruct, hbytes, hvariant⟩ := forms_alike formsRegistry
  have hpair : formsRegistry.get? 1 =
      some (.struct [⟨some "low", 0⟩, ⟨some "high", 0⟩]) := rfl
  have hlist : formsRegistry.get? 2 = some (.list 0 (some 2)) := rfl
  have hside : formsRegistry.get? 3 =
      some (.enum "Side" [⟨0, "Left", []⟩, ⟨5, "Right", []⟩]) := rfl
  have hentries : [("high", Value.unsigned 9), ("other", .null), ("low", .unsigned 3)].Perm
      ([("low", .unsigned 3), ("high", .unsigned 9)] ++ [("other", .null)]) :=
    List.perm_append_singleton ("low", Value.unsigned 3)
      [("high", .unsigned 9), ("other", .null)]
  have hdigits : Hex.Spells "aB01".toList [171, 1] := by
    rw [Hex.Spells]
    decide
  have hitems :
      List.Forall₂ (fun (byte : UInt8) item => Value.IsInteger item byte.toNat) [171, 1]
      [.unsigned 171, .signed 1] := .cons (.unsigned 171) (.cons (.signed 1) .nil)
  have hright : (⟨5, "Right", []⟩ : Variant) ∈ [⟨0, "Left", []⟩, ⟨5, "Right", []⟩] := by
    decide
  obtain ⟨hshort, hqualified, hnumber⟩ :=
    hvariant hside (by decide) (by decide) hright rfl (by decide)
  refine ⟨?_, hbytes hlist rfl hdigits hitems [171, 1], hshort, hqualified, hnumber "Right"⟩
  exact hstruct hpair (by decide) rfl hentries (by decide)

end ChainClient.Codec

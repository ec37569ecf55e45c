import ChainClient.Codec.Encode
import ChainClient.Proofs.Codec.Reading

/-! Reading and writing at a type, by its descriptor. -/

namespace ChainClient.Codec

variable {registry : TypeRegistry} {budget : Nat} {id : TypeId}

theorem decodeWithin_resolves {input rest : Bytes} {value : Value}
    (h : decodeWithin registry budget id input = .ok (value, rest)) :
    ∃ descriptor, registry.get? id = some descriptor := by
  cases budget with
  | zero =>
      rw [decodeWithin_zero] at h
      contradiction
  | succ budget =>
      cases hid : registry.get? id with
      | none => simp [decodeWithin, resolve, hid, bind, Except.bind] at h
      | some descriptor => exact ⟨descriptor, rfl⟩

theorem encodeWithin_resolves {written : Bytes} {value : Value}
    (h : encodeWithin registry budget value id = .ok written) :
    ∃ descriptor, registry.get? id = some descriptor := by
  cases budget with
  | zero =>
      rw [encodeWithin_zero] at h
      contradiction
  | succ budget =>
      cases hid : registry.get? id with
      | none => simp [encodeWithin, resolve, hid, bind, Except.bind] at h
      | some descriptor => exact ⟨descriptor, rfl⟩

/-! Scalars. -/

theorem decodeWithin_boolean (h : registry.get? id = some .boolean) :
    decodeWithin registry (budget + 1) id = decodeBool := by
  funext input
  simp only [decodeWithin, resolve, h, ok_bind]

theorem decodeWithin_primitive {width : Primitive}
    (h : registry.get? id = some (.primitive width)) :
    decodeWithin registry (budget + 1) id = decodePrimitive id width := by
  funext input
  simp only [decodeWithin, resolve, h, ok_bind]

theorem decodeWithin_string (h : registry.get? id = some .string) :
    decodeWithin registry (budget + 1) id = decodeString := by
  funext input
  simp only [decodeWithin, resolve, h, ok_bind]

theorem decodeWithin_compact {inner : TypeId}
    (h : registry.get? id = some (.compact inner)) :
    decodeWithin registry (budget + 1) id = decodeCompactValue := by
  funext input
  simp only [decodeWithin, resolve, h, ok_bind]

theorem decodeWithin_unsupported {tag : String}
    (h : registry.get? id = some (.unsupported tag)) (input : Bytes) :
    decodeWithin registry (budget + 1) id input = .error (.unsupportedType id tag) := by
  simp only [decodeWithin, resolve, h, ok_bind]

def encodeBool (id : TypeId) : Value → Except CodecError Bytes
  | .bool b => .ok [if b then 1 else 0]
  | value => mismatch id "bool" value

def encodeStringValue (id : TypeId) : Value → Except CodecError Bytes
  | .string text => encodeString text
  | value => mismatch id "str" value

theorem encodeWithin_boolean (h : registry.get? id = some .boolean) (value : Value) :
    encodeWithin registry (budget + 1) value id = encodeBool id value := by
  simp only [encodeWithin, resolve, h, ok_bind]
  cases value <;> rfl

theorem encodeWithin_primitive {width : Primitive}
    (h : registry.get? id = some (.primitive width)) (value : Value) :
    encodeWithin registry (budget + 1) value id = encodePrimitive id width value := by
  simp only [encodeWithin, resolve, h, ok_bind]

theorem encodeWithin_string (h : registry.get? id = some .string) (value : Value) :
    encodeWithin registry (budget + 1) value id = encodeStringValue id value := by
  simp only [encodeWithin, resolve, h, ok_bind]
  cases value <;> rfl

theorem encodeWithin_compact {inner : TypeId} (h : registry.get? id = some (.compact inner))
    (value : Value) :
    encodeWithin registry (budget + 1) value id = encodeCompactValue id value := by
  simp only [encodeWithin, resolve, h, ok_bind]

theorem encodeWithin_unsupported {tag : String}
    (h : registry.get? id = some (.unsupported tag)) (value : Value) :
    encodeWithin registry (budget + 1) value id = .error (.unsupportedType id tag) := by
  simp only [encodeWithin, resolve, h, ok_bind]

/-! Tuples, structs and enums. -/

theorem decodeWithin_tuple_eq_ok {types : List TypeId}
    (h : registry.get? id = some (.tuple types)) {input rest : Bytes} {value : Value} :
    decodeWithin registry (budget + 1) id input = .ok (value, rest) ↔
      ∃ values, decodeEach (decodeWithin registry budget) types input = .ok (values, rest) ∧
        value = .sequence values := by
  simp only [decodeWithin, resolve, h, ok_bind, bind_eq_ok, Prod.exists, Except.ok.injEq,
    Prod.mk.injEq]
  grind

theorem decodeWithin_struct_eq_ok {fields : List Field}
    (h : registry.get? id = some (.struct fields)) {input rest : Bytes} {value : Value} :
    decodeWithin registry (budget + 1) id input = .ok (value, rest) ↔
      ∃ values,
        decodeEach (fun field => decodeWithin registry budget field.type) fields input =
          .ok (values, rest) ∧
        value = .composite ((fieldNames fields).zip values) := by
  simp only [decodeWithin, resolve, h, ok_bind, bind_eq_ok, Prod.exists, Except.ok.injEq,
    Prod.mk.injEq]
  grind

theorem decodeWithin_enum_index {name : String} {variants : List Variant}
    (h : registry.get? id = some (.enum name variants)) {byte : UInt8} {variant : Variant}
    (hfind : variants.find? (·.index = byte) = some variant) (others : Bytes) :
    decodeWithin registry (budget + 1) id (byte :: others) =
      (fun parts =>
          (.variant (name ++ "::" ++ variant.name) variant.index parts.1, parts.2)) <$>
        decodeEach (fun field => decodeWithin registry budget field.type) variant.fields
          others := by
  simp only [decodeWithin, resolve, h, ok_bind, takeByte_cons, hfind]
  cases decodeEach (fun field => decodeWithin registry budget field.type) variant.fields
    others <;> rfl

theorem decodeWithin_enum_undeclared {name : String} {variants : List Variant}
    (h : registry.get? id = some (.enum name variants)) {byte : UInt8}
    (hfind : variants.find? (·.index = byte) = none) (others : Bytes) :
    decodeWithin registry (budget + 1) id (byte :: others) =
      .error (.invalidVariantIndex name byte) := by
  simp only [decodeWithin, resolve, h, ok_bind, takeByte_cons, hfind]

theorem decodeWithin_enum_eq_ok {name : String} {variants : List Variant}
    (h : registry.get? id = some (.enum name variants)) {input rest : Bytes}
    {value : Value} :
    decodeWithin registry (budget + 1) id input = .ok (value, rest) ↔
      ∃ byte others variant values,
        input = byte :: others ∧
        variants.find? (·.index = byte) = some variant ∧
        decodeEach (fun field => decodeWithin registry budget field.type)
          variant.fields others =
          .ok (values, rest) ∧
        value = .variant (name ++ "::" ++ variant.name) variant.index values := by
  cases input with
  | nil => simp [decodeWithin, resolve, h, takeByte, bind, Except.bind]
  | cons byte others =>
      cases hfind : variants.find? (·.index = byte) with
      | none =>
          rw [decodeWithin_enum_undeclared h hfind]
          grind
      | some variant =>
          rw [decodeWithin_enum_index h hfind]
          simp only [map_eq_ok, Prod.exists, Prod.mk.injEq]
          grind

theorem encodeWithin_tuple_eq_ok {types : List TypeId}
    (h : registry.get? id = some (.tuple types)) {value : Value} {written : Bytes} :
    encodeWithin registry (budget + 1) value id = .ok written ↔
      ∃ items, value = .sequence items ∧ items.length = types.length ∧
        encodeEach (fun pair => encodeWithin registry budget pair.1 pair.2)
          (items.zip types) =
          .ok written := by
  simp only [encodeWithin, resolve, h, ok_bind]
  cases value with
  | sequence items =>
      by_cases hlength : items.length = types.length
      · simp [hlength]
      · simp [hlength, mismatch]
  | _ => simp [mismatch]

theorem encodeWithin_struct_sequence {fields : List Field}
    (h : registry.get? id = some (.struct fields)) {items : List Value} {written : Bytes} :
    encodeWithin registry (budget + 1) (.sequence items) id = .ok written ↔
      items.length = fields.length ∧
        encodeEach (fun pair => encodeWithin registry budget pair.1 pair.2.type)
          (items.zip fields) = .ok written := by
  simp only [encodeWithin, resolve, h, ok_bind]
  by_cases hlength : items.length = fields.length
  · simp [hlength]
  · simp [hlength, mismatch]

theorem encodeWithin_struct_composite {fields : List Field}
    (h : registry.get? id = some (.struct fields)) (entries : List (String × Value)) :
    encodeWithin registry (budget + 1) (.composite entries) id =
      encodeNamed (encodeWithin registry budget) id (.composite entries) 0 fields := by
  simp only [encodeWithin, resolve, h, ok_bind]

theorem encodeWithin_struct_shape {fields : List Field}
    (h : registry.get? id = some (.struct fields)) {value : Value} {written : Bytes}
    (hwritten : encodeWithin registry (budget + 1) value id = .ok written) :
    (∃ entries, value = .composite entries) ∨ ∃ items, value = .sequence items := by
  simp only [encodeWithin, resolve, h, ok_bind] at hwritten
  cases value with
  | composite entries => exact .inl ⟨entries, rfl⟩
  | sequence items => exact .inr ⟨items, rfl⟩
  | _ => simp [mismatch] at hwritten

theorem encodeWithin_enum_eq_ok {name : String} {variants : List Variant}
    (h : registry.get? id = some (.enum name variants)) {value : Value} {written : Bytes} :
    encodeWithin registry (budget + 1) value id = .ok written ↔
      ∃ variant items rest,
        selectVariant id name variants value = .ok (variant, items) ∧
        items.length = variant.fields.length ∧
        encodeEach (fun pair => encodeWithin registry budget pair.1 pair.2.type)
          (items.zip variant.fields) = .ok rest ∧
        written = variant.index :: rest := by
  simp only [encodeWithin, resolve, h, ok_bind, bind_eq_ok, Prod.exists]
  constructor
  · rintro ⟨variant, items, hselect, hwritten⟩
    split at hwritten
    · obtain ⟨rest, hrest, rfl⟩ := map_eq_ok.mp hwritten
      exact ⟨variant, items, rest, hselect, ‹_›, hrest, rfl⟩
    · simp [mismatch] at hwritten
  · rintro ⟨variant, items, rest, hselect, hlength, hrest, rfl⟩
    exact ⟨variant, items, hselect, by simp [hlength, hrest]⟩

/-! Options and results. -/

/-- How the value of an option is given, by the descriptor of its inner type. -/
def wrapSome (inner : TypeDescriptor) (value : Value) : Value :=
  match inner with
  | .option _ => .variant someName 1 [value]
  | _ => value

theorem decodeWithin_option_eq_ok {inner : TypeId}
    (h : registry.get? id = some (.option inner)) {input rest : Bytes} {value : Value} :
    decodeWithin registry (budget + 1) id input = .ok (value, rest) ↔
      (input = 0 :: rest ∧ value = .null) ∨
        ∃ others item descriptor, input = 1 :: others ∧
          decodeWithin registry budget inner others = .ok (item, rest) ∧
          registry.get? inner = some descriptor ∧ value = wrapSome descriptor item := by
  simp only [decodeWithin, resolve, h, ok_bind]
  cases input with
  | nil => simp [takeByte, bind, Except.bind]
  | cons byte others =>
      simp only [takeByte_cons, ok_bind]
      by_cases hzero : byte = 0
      · rw [if_pos hzero]
        simp only [hzero, Except.ok.injEq, Prod.mk.injEq, List.cons.injEq]
        grind
      · rw [if_neg hzero]
        by_cases hone : byte = 1
        · rw [if_pos hone]
          simp only [hone, bind_eq_ok, Prod.exists]
          cases registry.get? inner with
          | none => simp
          | some descriptor => cases descriptor <;> simp [wrapSome, eq_comm]
        · simp [hzero, hone]

theorem decodeWithin_option_undeclared {inner : TypeId}
    (h : registry.get? id = some (.option inner)) {byte : UInt8} (hzero : byte ≠ 0)
    (hone : byte ≠ 1) (others : Bytes) :
    decodeWithin registry (budget + 1) id (byte :: others) =
      .error (.invalidVariantIndex "Option" byte) := by
  simp only [decodeWithin, resolve, h, ok_bind, takeByte_cons, if_neg hzero, if_neg hone]

/-- A value that an option does not take for the empty one or for one in its wrapper. -/
structure IsBare (value : Value) : Prop where
  not_null : value ≠ .null
  not_wrapped : ∀ index items, value ≠ .variant someName index items

theorem encodeWithin_option_null {inner : TypeId}
    (h : registry.get? id = some (.option inner)) :
    encodeWithin registry (budget + 1) .null id = .ok [0] := by
  simp only [encodeWithin, resolve, h, ok_bind]

theorem encodeWithin_option_wrapped {inner : TypeId}
    (h : registry.get? id = some (.option inner)) (index : UInt8) (item : Value) :
    encodeWithin registry (budget + 1) (.variant someName index [item]) id =
      (1 :: ·) <$> encodeWithin registry budget item inner := by
  simp only [encodeWithin, resolve, h, ok_bind, if_true]

theorem encodeWithin_option_bare {inner : TypeId}
    (h : registry.get? id = some (.option inner)) {value : Value} (hbare : IsBare value) :
    encodeWithin registry (budget + 1) value id =
      (1 :: ·) <$> encodeWithin registry budget value inner := by
  simp only [encodeWithin, resolve, h, ok_bind]
  cases value with
  | null => exact absurd rfl hbare.not_null
  | variant name index items =>
      have hname : name ≠ someName := by
        rintro rfl
        exact hbare.not_wrapped index items rfl
      simp only [if_neg hname]
  | _ => rfl

/-- Whatever is written as an option is empty, or a mark and a value of the inner type. -/
theorem encodeWithin_option_inversion {inner : TypeId}
    (h : registry.get? id = some (.option inner)) {value : Value} {written : Bytes}
    (hwritten : encodeWithin registry (budget + 1) value id = .ok written) :
    written = [0] ∨
      ∃ item rest, encodeWithin registry budget item inner = .ok rest ∧
        written = 1 :: rest := by
  by_cases hnull : value = .null
  · rw [hnull, encodeWithin_option_null h] at hwritten
    exact .inl (Except.ok.inj hwritten).symm
  · by_cases hwrapped : ∃ index items, value = .variant someName index items
    · obtain ⟨index, items, rfl⟩ := hwrapped
      match items with
      | [item] =>
          rw [encodeWithin_option_wrapped h] at hwritten
          obtain ⟨rest, hrest, rfl⟩ := map_eq_ok.mp hwritten
          exact .inr ⟨item, rest, hrest, rfl⟩
      | [] => simp [encodeWithin, resolve, h, mismatch] at hwritten
      | _ :: _ :: _ => simp [encodeWithin, resolve, h, mismatch] at hwritten
    · have hbare : IsBare value :=
        ⟨hnull, fun index items heq => hwrapped ⟨index, items, heq⟩⟩
      rw [encodeWithin_option_bare h hbare] at hwritten
      obtain ⟨rest, hrest, rfl⟩ := map_eq_ok.mp hwritten
      exact .inr ⟨value, rest, hrest, rfl⟩

/-- The name of a result by its mark. -/
def resultName (index : UInt8) : String :=
  if index = 0 then "Result::Ok" else "Result::Err"

theorem decodeWithin_result_index {ok err : TypeId}
    (h : registry.get? id = some (.result ok err)) {byte : UInt8}
    (hbyte : byte = 0 ∨ byte = 1) (others : Bytes) :
    decodeWithin registry (budget + 1) id (byte :: others) =
      (fun part => (.variant (resultName byte) byte [part.1], part.2)) <$>
        decodeWithin registry budget (if byte = 0 then ok else err) others := by
  simp only [decodeWithin, resolve, h, ok_bind, takeByte_cons]
  rcases hbyte with rfl | rfl
  · simp only [if_true]
    cases decodeWithin registry budget ok others <;> rfl
  · simp only [if_neg (show (1 : UInt8) ≠ 0 by decide), if_true]
    cases decodeWithin registry budget err others <;> rfl

theorem decodeWithin_result_undeclared {ok err : TypeId}
    (h : registry.get? id = some (.result ok err)) {byte : UInt8} (hzero : byte ≠ 0)
    (hone : byte ≠ 1) (others : Bytes) :
    decodeWithin registry (budget + 1) id (byte :: others) =
      .error (.invalidVariantIndex "Result" byte) := by
  simp only [decodeWithin, resolve, h, ok_bind, takeByte_cons, if_neg hzero, if_neg hone]

theorem decodeWithin_result_eq_ok {ok err : TypeId}
    (h : registry.get? id = some (.result ok err)) {input rest : Bytes} {value : Value} :
    decodeWithin registry (budget + 1) id input = .ok (value, rest) ↔
      ∃ index others item, (index = 0 ∨ index = 1) ∧ input = index :: others ∧
        decodeWithin registry budget (if index = 0 then ok else err) others =
          .ok (item, rest) ∧
        value = .variant (resultName index) index [item] := by
  cases input with
  | nil => simp [decodeWithin, resolve, h, takeByte, bind, Except.bind]
  | cons byte others =>
      by_cases hbyte : byte = 0 ∨ byte = 1
      · rw [decodeWithin_result_index h hbyte]
        simp only [map_eq_ok, Prod.exists, Prod.mk.injEq]
        grind
      · rw [decodeWithin_result_undeclared h (fun hzero => hbyte (.inl hzero))
          (fun hone => hbyte (.inr hone))]
        grind

theorem encodeWithin_result_eq_ok {ok err : TypeId}
    (h : registry.get? id = some (.result ok err)) {value : Value} {written : Bytes} :
    encodeWithin registry (budget + 1) value id = .ok written ↔
      ∃ name index item rest, (index = 0 ∨ index = 1) ∧ value = .variant name index [item] ∧
        encodeWithin registry budget item (if index = 0 then ok else err) = .ok rest ∧
        written = index :: rest := by
  simp only [encodeWithin, resolve, h, ok_bind]
  cases value with
  | variant name index items =>
      by_cases hindex : index = 0 ∨ index = 1
      · rcases items with _ | ⟨item, _ | ⟨other, others⟩⟩
        · simp [hindex, mismatch]
        · simp only [if_pos hindex, map_eq_ok]
          grind
        · simp [hindex, mismatch]
      · simp only [if_neg hindex]
        grind
  | _ => simp [mismatch]

/-! Lists. -/

theorem decodeWithin_bytes_eq_ok {element : TypeId} {length? : Option Nat}
    (h : registry.get? id = some (.list element length?))
    (hbyte : registry.isByte element = true) {input rest : Bytes} {value : Value} :
    decodeWithin registry (budget + 1) id input = .ok (value, rest) ↔
      ∃ length middle raw, listLength length? input = .ok (length, middle) ∧
        take length middle = .ok (raw, rest) ∧ value = .ofBytes raw := by
  simp only [decodeWithin, resolve, h, ok_bind, hbyte, if_true, bind_eq_ok, Prod.exists,
    Except.ok.injEq, Prod.mk.injEq]
  grind

theorem decodeWithin_list_eq_ok {element : TypeId} {length? : Option Nat}
    (h : registry.get? id = some (.list element length?))
    (hbyte : registry.isByte element = false) {input rest : Bytes} {value : Value} :
    decodeWithin registry (budget + 1) id input = .ok (value, rest) ↔
      ∃ length middle values, listLength length? input = .ok (length, middle) ∧
        decodeRepeated (decodeWithin registry budget element) length middle =
          .ok (values, rest) ∧
        value = .sequence values := by
  simp only [decodeWithin, resolve, h, ok_bind, hbyte, Bool.false_eq_true, if_false,
    bind_eq_ok, Prod.exists, Except.ok.injEq, Prod.mk.injEq]
  grind

theorem encodeWithin_bytes {element : TypeId} {length? : Option Nat}
    (h : registry.get? id = some (.list element length?))
    (hbyte : registry.isByte element = true) (text : String) :
    encodeWithin registry (budget + 1) (.string text) id =
      encodeByteList id (.string text) length? := by
  simp only [encodeWithin, resolve, h, ok_bind, hbyte, if_true]

theorem encodeWithin_list_sequence_eq_ok {element : TypeId} {length? : Option Nat}
    (h : registry.get? id = some (.list element length?)) {items : List Value}
    {written : Bytes} :
    encodeWithin registry (budget + 1) (.sequence items) id = .ok written ↔
      ∃ lengthBytes bytes,
        checkLength id (.sequence items) length? items.length = .ok () ∧
        encodeLength length? items.length = .ok lengthBytes ∧
        encodeEach (encodeWithin registry budget · element) items = .ok bytes ∧
        written = lengthBytes ++ bytes := by
  simp only [encodeWithin, resolve, h, ok_bind, bind_eq_ok, Except.ok.injEq]
  grind

theorem encodeWithin_list_shape {element : TypeId} {length? : Option Nat}
    (h : registry.get? id = some (.list element length?)) {value : Value} {written : Bytes}
    (hwritten : encodeWithin registry (budget + 1) value id = .ok written) :
    (registry.isByte element = true ∧ ∃ text, value = .string text) ∨
      ∃ items, value = .sequence items := by
  simp only [encodeWithin, resolve, h, ok_bind] at hwritten
  cases value with
  | string text =>
      cases hbyte : registry.isByte element with
      | true => exact .inl ⟨rfl, text, rfl⟩
      | false => simp [hbyte, mismatch] at hwritten
  | sequence items => exact .inr ⟨items, rfl⟩
  | _ => simp [mismatch] at hwritten

theorem encodeByteList_eq_ok {value : Value} {length? : Option Nat} {written : Bytes} :
    encodeByteList id value length? = .ok written ↔
      ∃ raw lengthBytes, value.toBytes? = some raw ∧
        checkLength id value length? raw.length = .ok () ∧
        encodeLength length? raw.length = .ok lengthBytes ∧
        written = lengthBytes ++ raw := by
  rw [encodeByteList]
  cases value.toBytes? with
  | none => simp [mismatch]
  | some raw =>
      simp only [bind_eq_ok, Except.ok.injEq]
      grind

end ChainClient.Codec

import ChainClient.Proofs.Codec.Descriptor
import ChainClient.Proofs.Codec.Recompaction
import ChainClient.Proofs.Text.Hex

/-! Both directions between bytes and values, for the types that have no parts. -/

namespace ChainClient.Codec

abbrev Writer (β : Type) := β → Except CodecError Bytes

/-- A value that is read is written as bytes that are read as it again, and only compact
integers may get shorter on the way. -/
def Restores (read : Reader β) (write : Writer β) : Prop :=
  ∀ ⦃input rest value⦄, read input = .ok (value, rest) →
    ∃ raw written, input = raw ++ rest ∧ write value = .ok written ∧
      Reads read written value ∧ Recompacts raw written

/-- Bytes that are written are read back, as a value that is written as the same bytes
as far as `faithful` says so. -/
def Settles (faithful : Prop) (read : Reader β) (write : Writer β) : Prop :=
  ∀ ⦃value written⦄, write value = .ok written →
    ∃ settled, Reads read written settled ∧ (faithful → write settled = .ok written)

variable {faithful : Prop} {id : TypeId}

/-! Booleans. -/

def boolByte (b : Bool) : UInt8 := if b then 1 else 0

theorem decodeBool_eq_ok {input rest : Bytes} {value : Value} :
    decodeBool input = .ok (value, rest) ↔ ∃ b, input = boolByte b :: rest ∧
      value = .bool b := by
  cases input with
  | nil => simp [decodeBool, takeByte, bind, Except.bind]
  | cons byte others =>
      simp only [decodeBool, takeByte_cons, ok_bind, Bool.exists_bool, boolByte]
      by_cases hzero : byte = 0
      · simp [hzero]
        grind
      · by_cases hone : byte = 1
        · simp [hone]
          grind
        · simp [hzero, hone]

theorem bool_reads (b : Bool) : Reads decodeBool [boolByte b] (.bool b) :=
  fun _ => decodeBool_eq_ok.mpr ⟨b, rfl, rfl⟩

theorem restores_bool : Restores decodeBool (encodeBool id) := by
  intro input rest value h
  obtain ⟨b, rfl, rfl⟩ := decodeBool_eq_ok.mp h
  exact ⟨[boolByte b], [boolByte b], rfl, rfl, bool_reads b, .same _⟩

theorem settles_bool : Settles faithful decodeBool (encodeBool id) := by
  intro value written h
  cases value with
  | bool b =>
      obtain rfl := Except.ok.inj h
      exact ⟨.bool b, bool_reads b, fun _ => rfl⟩
  | _ => simp [encodeBool, mismatch] at h

/-! Integers of fixed width. -/

theorem byteLength?_eq_some {primitive : Primitive} {length : Nat}
    (h : primitive.byteLength? = some length) :
    0 < length ∧ primitive.bits = 8 * length := by
  simp only [Primitive.byteLength?] at h
  split at h
  · rename_i hbits
    simp only [List.mem_cons, List.not_mem_nil, or_false] at hbits
    obtain rfl := Option.some.inj h
    omega
  · contradiction

/-- The integer that bytes stand for. -/
def primitiveValue (primitive : Primitive) (raw : Bytes) : Value :=
  if primitive.signed then .signed (toSigned primitive.bits raw.toNatLE)
  else .unsigned raw.toNatLE

theorem toSigned_bounds {bits n : Nat} (hbits : 0 < bits) (h : n < 2 ^ bits) :
    -2 ^ (bits - 1) ≤ toSigned bits n ∧ toSigned bits n < 2 ^ (bits - 1) ∧
      toSigned bits n % 2 ^ bits = n := by
  obtain ⟨bits, rfl⟩ : ∃ fewer, bits = fewer + 1 := ⟨bits - 1, by omega⟩
  have hpow : (2 : Int) ^ (bits + 1) = 2 * 2 ^ bits := by
    rw [Int.pow_succ, Int.mul_comm]
  have hcast : ((2 ^ bits : Nat) : Int) = 2 ^ bits := by simp
  have hnat : 2 ^ (bits + 1) = 2 * 2 ^ bits := by rw [Nat.pow_succ, Nat.mul_comm]
  simp only [toSigned, Nat.add_sub_cancel]
  rw [hpow]
  split
  · refine ⟨by omega, by omega, ?_⟩
    exact Int.emod_eq_of_lt (by omega) (by omega)
  · refine ⟨by omega, by omega, ?_⟩
    rw [Int.sub_emod_right]
    exact Int.emod_eq_of_lt (by omega) (by omega)

theorem decodePrimitive_eq_ok {primitive : Primitive} {input rest : Bytes} {value : Value} :
    decodePrimitive id primitive input = .ok (value, rest) ↔
      ∃ raw, primitive.byteLength? = some raw.length ∧ input = raw ++ rest ∧
        value = primitiveValue primitive raw := by
  rw [decodePrimitive]
  cases primitive.byteLength? with
  | none => simp
  | some length =>
      simp only [bind_eq_ok, Prod.exists, take_eq_ok, primitiveValue]
      cases primitive.signed
      · simp only [Bool.false_eq_true, if_false, Except.ok.injEq, Prod.mk.injEq]
        grind
      · simp only [if_true, Except.ok.injEq, Prod.mk.injEq]
        grind

theorem encodePrimitive_eq_ok {primitive : Primitive} {value : Value} {written : Bytes} :
    encodePrimitive id primitive value = .ok written ↔
      ∃ length n, primitive.byteLength? = some length ∧ toInt? value = some n ∧
        Fits primitive n ∧ written = Bytes.ofNatLE length
          (n % 2 ^ primitive.bits).toNat := by
  rw [encodePrimitive]
  cases primitive.byteLength? with
  | none => simp
  | some length =>
      cases toInt? value with
      | none => simp [mismatch]
      | some n =>
          by_cases hfits : Fits primitive n
          · simp only [if_pos hfits, Except.ok.injEq, Option.some.injEq]
            grind
          · simp only [if_neg hfits, mismatch, reduceCtorEq, Option.some.injEq, false_iff]
            grind

/-- The integer that bytes stand for is in range, and written as these bytes. -/
theorem encodePrimitive_primitiveValue {primitive : Primitive} {raw : Bytes}
    (h : primitive.byteLength? = some raw.length) :
    encodePrimitive id primitive (primitiveValue primitive raw) = .ok raw := by
  obtain ⟨hpositive, hbits⟩ := byteLength?_eq_some h
  have hlt : raw.toNatLE < 2 ^ primitive.bits := by
    rw [hbits, Nat.pow_mul]
    exact raw.toNatLE_lt
  have hcast : ((2 ^ primitive.bits : Nat) : Int) = 2 ^ primitive.bits := by simp
  have hraw : Bytes.ofNatLE raw.length (raw.toNatLE : Int).toNat = raw := by
    rw [Int.toNat_natCast, Bytes.ofNatLE_toNatLE]
  rw [encodePrimitive_eq_ok, primitiveValue]
  cases hsigned : primitive.signed with
  | true =>
      have hwide : 0 < primitive.bits := by omega
      obtain ⟨hlow, hhigh, hmod⟩ := toSigned_bounds hwide hlt
      refine ⟨raw.length, toSigned primitive.bits raw.toNatLE, h, rfl, ?_, ?_⟩
      · simp only [Fits, hsigned, if_true]
        exact ⟨hlow, hhigh⟩
      · rw [hmod, hraw]
  | false =>
      refine ⟨raw.length, raw.toNatLE, h, rfl, ?_, ?_⟩
      · simp only [Fits, hsigned, Bool.false_eq_true, if_false]
        omega
      · rw [Int.emod_eq_of_lt (by omega) (by omega), hraw]

theorem primitive_reads {primitive : Primitive} {raw : Bytes}
    (h : primitive.byteLength? = some raw.length) :
    Reads (decodePrimitive id primitive) raw (primitiveValue primitive raw) :=
  fun _ => decodePrimitive_eq_ok.mpr ⟨raw, h, rfl, rfl⟩

theorem restores_primitive {primitive : Primitive} :
    Restores (decodePrimitive id primitive) (encodePrimitive id primitive) := by
  intro input rest value h
  obtain ⟨raw, hlength, rfl, rfl⟩ := decodePrimitive_eq_ok.mp h
  exact ⟨raw, raw, rfl, encodePrimitive_primitiveValue hlength, primitive_reads hlength,
    .same raw⟩

theorem settles_primitive {primitive : Primitive} :
    Settles faithful (decodePrimitive id primitive) (encodePrimitive id primitive) := by
  intro value written h
  obtain ⟨length, n, hlength, _, _, rfl⟩ := encodePrimitive_eq_ok.mp h
  rw [← Bytes.length_ofNatLE length (n % 2 ^ primitive.bits).toNat] at hlength
  exact ⟨_, primitive_reads hlength, fun _ => encodePrimitive_primitiveValue hlength⟩

/-! Compact integers. -/

theorem restores_decodeCompact : Restores decodeCompact encodeCompact := by
  intro input rest n h
  obtain ⟨mode, hbound, rfl⟩ := decodeCompact_eq_ok.mp h
  have hlimit : n < compactLimit := Nat.lt_of_lt_of_le hbound mode.bound_le_limit
  obtain ⟨shortest, hshortest⟩ := CompactMode.exists_shortest hlimit
  exact ⟨mode.form n, shortest.form n, rfl, encodeCompact_of_shortest hshortest,
    form_reads hshortest.holds, .form hbound hshortest⟩

theorem decodeCompactValue_eq_ok {input rest : Bytes} {value : Value} :
    decodeCompactValue input = .ok (value, rest) ↔
      ∃ n, decodeCompact input = .ok (n, rest) ∧ value = .unsigned n := by
  simp only [decodeCompactValue, bind_eq_ok, Prod.exists, Except.ok.injEq, Prod.mk.injEq]
  grind

theorem encodeCompactValue_eq_ok {value : Value} {written : Bytes} :
    encodeCompactValue id value = .ok written ↔
      ∃ n, value.toNat? = some n ∧ encodeCompact n = .ok written := by
  rw [encodeCompactValue]
  cases value.toNat? with
  | none => simp [mismatch]
  | some n => simp

theorem compact_reads {n : Nat} {written : Bytes} (h : Reads decodeCompact written n) :
    Reads decodeCompactValue written (.unsigned n) :=
  fun suffix => decodeCompactValue_eq_ok.mpr ⟨n, h suffix, rfl⟩

theorem restores_compact : Restores decodeCompactValue (encodeCompactValue id) := by
  intro input rest value h
  obtain ⟨n, hn, rfl⟩ := decodeCompactValue_eq_ok.mp h
  obtain ⟨raw, written, hinput, hwritten, hreads, hraw⟩ := restores_decodeCompact hn
  exact ⟨raw, written, hinput, hwritten, compact_reads hreads, hraw⟩

theorem settles_compact : Settles faithful decodeCompactValue (encodeCompactValue id) := by
  intro value written h
  obtain ⟨n, _, hwritten⟩ := encodeCompactValue_eq_ok.mp h
  exact ⟨.unsigned n, compact_reads (encodeCompact_reads hwritten), fun _ => hwritten⟩

/-! Strings. -/

theorem decodeString_eq_ok {input rest : Bytes} {value : Value} :
    decodeString input = .ok (value, rest) ↔
      ∃ text, decodeCompact input =
          .ok ((Bytes.ofString text).length, Bytes.ofString text ++ rest) ∧
        value = .string text := by
  simp only [decodeString, bind_eq_ok, Prod.exists, take_eq_ok]
  constructor
  · rintro ⟨length, middle, hlength, raw, remaining, ⟨rfl, rfl⟩, h⟩
    cases htext : raw.toString? with
    | none => simp [htext] at h
    | some text =>
        simp only [htext, Except.ok.injEq, Prod.mk.injEq] at h
        obtain ⟨rfl, rfl⟩ := h
        rw [← Bytes.ofString_of_toString? htext] at hlength
        exact ⟨text, hlength, rfl⟩
  · rintro ⟨text, hlength, rfl⟩
    exact ⟨_, _, hlength, _, rest, ⟨rfl, rfl⟩, by simp⟩

theorem encodeString_eq_ok {text : String} {written : Bytes} :
    encodeString text = .ok written ↔
      ∃ lengthBytes, encodeCompact (Bytes.ofString text).length = .ok lengthBytes ∧
        written = lengthBytes ++ Bytes.ofString text := by
  simp only [encodeString, bind_eq_ok, Except.ok.injEq]
  grind

theorem string_reads {text : String} {lengthBytes : Bytes}
    (h : Reads decodeCompact lengthBytes (Bytes.ofString text).length) :
    Reads decodeString (lengthBytes ++ Bytes.ofString text) (.string text) := by
  intro suffix
  rw [List.append_assoc]
  exact decodeString_eq_ok.mpr ⟨text, h _, rfl⟩

theorem restores_string : Restores decodeString (encodeStringValue id) := by
  intro input rest value h
  obtain ⟨text, hlength, rfl⟩ := decodeString_eq_ok.mp h
  obtain ⟨raw, written, rfl, hwritten, hreads, hraw⟩ := restores_decodeCompact hlength
  exact ⟨raw ++ Bytes.ofString text, written ++ Bytes.ofString text, by simp,
    encodeString_eq_ok.mpr ⟨written, hwritten, rfl⟩, string_reads hreads,
    hraw.append (.same _)⟩

theorem settles_string : Settles faithful decodeString (encodeStringValue id) := by
  intro value written h
  cases value with
  | string text =>
      obtain ⟨lengthBytes, hlength, rfl⟩ := encodeString_eq_ok.mp h
      exact ⟨.string text, string_reads (encodeCompact_reads hlength), fun _ => h⟩
  | _ => simp [encodeStringValue, mismatch] at h

/-! Lengths of lists. -/

theorem restores_listLength {length? : Option Nat} :
    Restores (listLength length?) (encodeLength length?) := by
  intro input rest length h
  cases length? with
  | none => exact restores_decodeCompact h
  | some fixed =>
      simp only [listLength, Except.ok.injEq, Prod.mk.injEq] at h
      obtain ⟨rfl, rfl⟩ := h
      exact ⟨[], [], rfl, rfl, fun _ => rfl, .same []⟩

theorem checkLength_eq_ok {value : Value} {length? : Option Nat} {length : Nat} :
    checkLength id value length? length = .ok () ↔ ∀ fixed ∈ length?, fixed = length := by
  cases length? with
  | none => simp [checkLength]
  | some fixed =>
      by_cases h : fixed = length
      · simp [checkLength, h]
      · simp [checkLength, h, mismatch]

/-- Whether a length is right does not depend on the value that has it. -/
theorem checkLength_any {value other : Value} {length? : Option Nat} {length : Nat}
    (h : checkLength id value length? length = .ok ()) :
    checkLength id other length? length = .ok () :=
  checkLength_eq_ok.mpr (checkLength_eq_ok.mp h)

theorem checkLength_of_listLength {value : Value} {length? : Option Nat} {length : Nat}
    {input rest : Bytes} (h : listLength length? input = .ok (length, rest)) :
    checkLength id value length? length = .ok () := by
  rw [checkLength_eq_ok]
  rintro fixed rfl
  simp only [listLength, Except.ok.injEq, Prod.mk.injEq] at h
  exact h.1

theorem listLength_reads {value : Value} {length? : Option Nat} {length : Nat}
    {lengthBytes : Bytes} (hcheck : checkLength id value length? length = .ok ())
    (h : encodeLength length? length = .ok lengthBytes) :
    Reads (listLength length?) lengthBytes length := by
  cases length? with
  | none => exact encodeCompact_reads h
  | some fixed =>
      obtain rfl := checkLength_eq_ok.mp hcheck fixed rfl
      obtain rfl := Except.ok.inj h
      exact fun _ => rfl

end ChainClient.Codec

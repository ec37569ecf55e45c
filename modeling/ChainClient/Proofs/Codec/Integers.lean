import ChainClient.Proofs.Codec.RoundTrip

/-! Integers are written exactly or not at all. -/

namespace ChainClient

/-- The value is this integer, in one kind or the other. -/
inductive Value.IsInteger : Value → Int → Prop
  | unsigned (n : Nat) : IsInteger (.unsigned n) n
  | signed (n : Int) : IsInteger (.signed n) n

namespace Primitive

variable {primitive : Primitive} {n : Int}

def lowest (primitive : Primitive) : Int :=
  if primitive.signed then -2 ^ (primitive.bits - 1) else 0

def highest (primitive : Primitive) : Int :=
  if primitive.signed then 2 ^ (primitive.bits - 1) - 1 else 2 ^ primitive.bits - 1

/-- An integer in the kind that is read at the type. -/
def valueOf (primitive : Primitive) (n : Int) : Value :=
  if primitive.signed then .signed n else .unsigned n.toNat

theorem byteLength?_isSome :
    primitive.byteLength?.isSome ↔ primitive.bits ∈ [8, 16, 32, 64, 128] := by
  rw [byteLength?]
  split
  case isTrue h => exact iff_of_true rfl h
  case isFalse h => exact iff_of_false Bool.false_ne_true h

end Primitive

namespace Codec

variable {registry : TypeRegistry} {id : TypeId} {primitive : Primitive}
  {value : Value} {n : Int}

/-- The bytes are an integer in two's complement, least byte first. -/
structure TwosComplement (bits : Nat) (n : Int) (bytes : Bytes) : Prop where
  width : bytes.length = bits / 8
  number : bytes.toNatLE = (BitVec.ofInt bits n).toNat

theorem toInt?_eq_some : toInt? value = some n ↔ value.IsInteger n := by
  constructor
  · intro h
    cases value with
    | unsigned m =>
        obtain rfl := Option.some.inj h
        exact .unsigned m
    | signed m =>
        obtain rfl := Option.some.inj h
        exact .signed m
    | _ => cases h
  · intro h
    cases h <;> rfl

theorem fits_iff : Fits primitive n ↔ primitive.lowest ≤ n ∧ n ≤ primitive.highest := by
  unfold Fits Primitive.lowest Primitive.highest
  cases primitive.signed with
  | true =>
      simp only [if_true]
      omega
  | false =>
      simp only [Bool.false_eq_true, if_false]
      omega

theorem twosComplement_ofNatLE (length : Nat) (n : Int) :
    TwosComplement (8 * length) n (Bytes.ofNatLE length (n % 2 ^ (8 * length)).toNat) where
  width := by
    rw [Bytes.length_ofNatLE]
    omega
  number := by
    have hpower : 256 ^ length = 2 ^ (8 * length) := by
      rw [Nat.pow_mul]
    have hlt : (n % 2 ^ (8 * length)).toNat < 2 ^ (8 * length) := by
      have hpositive : (0 : Int) < 2 ^ (8 * length) := Int.pow_pos (by decide)
      have hbound := Int.emod_lt_of_pos n hpositive
      have hcast : ((2 ^ (8 * length) : Nat) : Int) = 2 ^ (8 * length) := by simp
      omega
    rw [Bytes.toNatLE_ofNatLE, hpower, Nat.mod_eq_of_lt hlt, BitVec.toNat_ofInt]
    simp

/-- An integer is told by its remainder if it is in range. -/
theorem toSigned_emod {bits : Nat} (hbits : 0 < bits) (hlow : -2 ^ (bits - 1) ≤ n)
    (hhigh : n < 2 ^ (bits - 1)) : toSigned bits (n % 2 ^ bits).toNat = n := by
  obtain ⟨bits, rfl⟩ : ∃ fewer, bits = fewer + 1 := ⟨bits - 1, by omega⟩
  have hcast : ((2 ^ bits : Nat) : Int) = 2 ^ bits := by simp
  have hpower : (2 : Int) ^ (bits + 1) = 2 * 2 ^ bits := by
    rw [Int.pow_succ, Int.mul_comm]
  rw [Nat.add_sub_cancel] at hlow hhigh
  rw [toSigned, Nat.add_sub_cancel, hpower]
  by_cases hsign : 0 ≤ n
  · have hmod : n % (2 * 2 ^ bits) = n := Int.emod_eq_of_lt hsign (by omega)
    rw [hmod, if_pos (by omega), Int.toNat_of_nonneg hsign]
  · have hmod : n % (2 * 2 ^ bits) = n + 2 * 2 ^ bits := by
      rw [← Int.add_emod_right]
      exact Int.emod_eq_of_lt (by omega) (by omega)
    rw [hmod, if_neg (by omega), Int.toNat_of_nonneg (by omega)]
    omega

theorem primitiveValue_ofNatLE {length : Nat}
    (hlength : primitive.byteLength? = some length) (hfits : Fits primitive n) :
    primitiveValue primitive (Bytes.ofNatLE length (n % 2 ^ primitive.bits).toNat) =
      primitive.valueOf n := by
  obtain ⟨hpositive, hbits⟩ := byteLength?_eq_some hlength
  have hnumber : (Bytes.ofNatLE length (n % 2 ^ primitive.bits).toNat).toNatLE =
      (n % 2 ^ primitive.bits).toNat := by
    rw [hbits, (twosComplement_ofNatLE length n).number, BitVec.toNat_ofInt]
    simp
  unfold Fits at hfits
  rw [primitiveValue, Primitive.valueOf, hnumber]
  cases hsigned : primitive.signed with
  | true =>
      simp only [hsigned, if_true] at hfits ⊢
      rw [toSigned_emod (by omega) hfits.1 hfits.2]
  | false =>
      simp only [hsigned, Bool.false_eq_true, if_false] at hfits ⊢
      rw [Int.emod_eq_of_lt hfits.1 hfits.2]

theorem encode_primitive_eq_ok (hid : registry.get? id = some (.primitive primitive))
    {bytes : Bytes} :
    encode registry id value = .ok bytes ↔
      ∃ length n, primitive.byteLength? = some length ∧ value.IsInteger n ∧
        Fits primitive n ∧
        bytes = Bytes.ofNatLE length (n % 2 ^ primitive.bits).toNat := by
  simp only [encode, maxDepth, encodeWithin_primitive hid, encodePrimitive_eq_ok,
    toInt?_eq_some]

theorem integer_reads (hid : registry.get? id = some (.primitive primitive)) {length : Nat}
    (hlength : primitive.byteLength? = some length) (hfits : Fits primitive n) :
    Reads (decodeWithin registry maxDepth id)
      (Bytes.ofNatLE length (n % 2 ^ primitive.bits).toNat) (primitive.valueOf n) := by
  rw [maxDepth, decodeWithin_primitive hid, ← primitiveValue_ofNatLE hlength hfits]
  apply primitive_reads
  rwa [Bytes.length_ofNatLE]

/-- A value is written at an integer type exactly if the codec carries its width and the
value is an integer in its range, of either kind; and then as the bytes that this integer is
in two's complement, which are read as the integer again. -/
theorem integer_exact_or_refused (hid : registry.get? id = some (.primitive primitive))
    (value : Value) :
    ((∃ bytes, encode registry id value = .ok bytes) ↔
      primitive.bits ∈ [8, 16, 32, 64, 128] ∧
        ∃ n, value.IsInteger n ∧ primitive.lowest ≤ n ∧ n ≤ primitive.highest) ∧
    ∀ bytes, encode registry id value = .ok bytes →
      ∃ n, value.IsInteger n ∧ TwosComplement primitive.bits n bytes ∧
        ∀ suffix, decode registry id (bytes ++ suffix) =
          .ok (primitive.valueOf n, primitive.bits / 8) := by
  simp only [encode_primitive_eq_ok hid]
  constructor
  · constructor
    · rintro ⟨bytes, length, n, hlength, hinteger, hfits, -⟩
      have hcarried : primitive.byteLength?.isSome := by rw [hlength]; rfl
      exact ⟨Primitive.byteLength?_isSome.mp hcarried, n, hinteger, fits_iff.mp hfits⟩
    · rintro ⟨hwidth, n, hinteger, hrange⟩
      obtain ⟨length, hlength⟩ :=
        Option.isSome_iff_exists.mp (Primitive.byteLength?_isSome.mpr hwidth)
      exact ⟨_, length, n, hlength, hinteger, fits_iff.mpr hrange, rfl⟩
  · rintro bytes ⟨length, n, hlength, hinteger, hfits, rfl⟩
    obtain ⟨-, hbits⟩ := byteLength?_eq_some hlength
    have hcomplement := twosComplement_ofNatLE length n
    rw [← hbits] at hcomplement
    refine ⟨n, hinteger, hcomplement, fun suffix => ?_⟩
    rw [decode_of_reads (integer_reads hid hlength hfits), hcomplement.width]

/-- The widest signed type. -/
def widestRegistry : TypeRegistry := ⟨[(0, .primitive (.signedOf 128))]⟩

/-- The unsigned kind goes beyond the type: its last number there is written,
and the next one is refused. -/
theorem integer_exact_or_refused_widest :
    widestRegistry.get? 0 = some (.primitive (.signedOf 128)) ∧
      (¬ ∃ bytes, encode widestRegistry 0 (.unsigned (2 ^ 127)) = .ok bytes) ∧
      ∃ bytes, encode widestRegistry 0 (.unsigned (2 ^ 127 - 1)) = .ok bytes ∧
        TwosComplement 128 (2 ^ 127 - 1) bytes ∧
        ∀ suffix, decode widestRegistry 0 (bytes ++ suffix) =
          .ok (.signed (2 ^ 127 - 1), 16) := by
  have hid : widestRegistry.get? 0 = some (.primitive (.signedOf 128)) := rfl
  refine ⟨hid, fun hwritten => ?_, ?_⟩
  · obtain ⟨-, n, hinteger, -, hhigh⟩ :=
      (integer_exact_or_refused hid (.unsigned (2 ^ 127))).1.mp hwritten
    cases hinteger
    exact absurd hhigh (by decide)
  · obtain ⟨hwritten, hexact⟩ := integer_exact_or_refused hid (.unsigned (2 ^ 127 - 1))
    obtain ⟨bytes, hbytes⟩ :=
      hwritten.mpr ⟨by decide, _, .unsigned _, by decide, by decide⟩
    obtain ⟨n, hinteger, hcomplement, hread⟩ := hexact bytes hbytes
    cases hinteger
    exact ⟨bytes, hbytes, hcomplement, hread⟩

end Codec

end ChainClient

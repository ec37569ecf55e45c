import ChainClient.Proofs.Codec.Integers

/-! Compact integers against the integer type that they compact.  What is written and read
as a compact integer is bounded by the modes alone, whatever the width of that type. -/

namespace ChainClient

theorem Value.IsInteger.unique {value : Value} {n m : Int} (hn : value.IsInteger n)
    (hm : value.IsInteger m) : n = m := by
  cases hn <;> cases hm <;> rfl

namespace Codec

variable {registry : TypeRegistry} {id inner : TypeId} {bits : Nat} {value : Value}

def Writable (registry : TypeRegistry) (id : TypeId) (value : Value) : Prop :=
  ∃ bytes, encode registry id value = .ok bytes

/-- Nothing is written or read as a compact integer that cannot be
written as the type it compacts. -/
structure WithinInner (registry : TypeRegistry) (id inner : TypeId) : Prop where
  written : ∀ value, Writable registry id value → Writable registry inner value
  read : ∀ bytes value count,
    decode registry id bytes = .ok (value, count) → Writable registry inner value

theorem toNat?_eq_some {n : Nat} : value.toNat? = some n ↔ value.IsInteger n := by
  constructor
  · intro h
    cases value with
    | unsigned m =>
        obtain rfl := Option.some.inj h
        exact .unsigned m
    | signed m =>
        rw [Value.toNat?] at h
        split at h
        case isTrue hsign =>
          obtain rfl := Option.some.inj h
          rw [Int.toNat_of_nonneg hsign]
          exact .signed m
        case isFalse => cases h
    | _ => cases h
  · intro h
    generalize hm : (n : Int) = m at h
    cases h with
    | unsigned k => rw [Int.natCast_inj.mp hm, Value.toNat?]
    | signed k => simp [Value.toNat?, ← hm]

theorem writable_compact_iff (hid : registry.get? id = some (.compact inner)) :
    Writable registry id value ↔ ∃ n : Nat, value.IsInteger n ∧ n < compactLimit := by
  simp only [Writable, encode, maxDepth, encodeWithin_compact hid, encodeCompactValue_eq_ok,
    toNat?_eq_some, encodeCompact_eq_ok]
  constructor
  · rintro ⟨bytes, n, hn, mode, hshortest, -⟩
    exact ⟨n, hn, Nat.lt_of_lt_of_le hshortest.holds mode.bound_le_limit⟩
  · rintro ⟨n, hn, hlimit⟩
    obtain ⟨mode, hshortest⟩ := CompactMode.exists_shortest hlimit
    exact ⟨_, n, hn, mode, hshortest, rfl⟩

theorem writable_unsigned_iff
    (hinner : registry.get? inner = some (.primitive (.unsigned bits)))
    (hwidth : bits ∈ [8, 16, 32, 64, 128]) :
    Writable registry inner value ↔ ∃ n : Nat, value.IsInteger n ∧ n < 2 ^ bits := by
  have hcarried : (Primitive.unsigned bits).byteLength?.isSome :=
    Primitive.byteLength?_isSome.mpr hwidth
  obtain ⟨length, hlength⟩ := Option.isSome_iff_exists.mp hcarried
  have hcast : ((2 ^ bits : Nat) : Int) = 2 ^ bits := by simp
  simp only [Writable, encode_primitive_eq_ok hinner]
  constructor
  · rintro ⟨bytes, -, n, -, hn, ⟨hlow, hhigh⟩, -⟩
    obtain ⟨m, rfl⟩ := Int.eq_ofNat_of_zero_le hlow
    refine ⟨m, hn, ?_⟩
    have hbound : (m : Int) < 2 ^ bits := hhigh
    omega
  · rintro ⟨n, hn, hbound⟩
    refine ⟨_, length, n, hlength, hn, ⟨by omega, ?_⟩, rfl⟩
    change (n : Int) < 2 ^ bits
    omega

theorem decode_compact_iff (hid : registry.get? id = some (.compact inner)) {bytes : Bytes}
    {count : Nat} :
    decode registry id bytes = .ok (value, count) ↔
      ∃ (n : Nat) (mode : CompactMode) (rest : Bytes),
      n < mode.bound ∧ bytes = mode.form n ++ rest ∧ value = .unsigned n ∧
        count = mode.width := by
  simp only [decode_eq_ok, maxDepth, decodeWithin_compact hid, decodeCompactValue_eq_ok,
    decodeCompact_eq_ok]
  constructor
  · rintro ⟨rest, ⟨n, ⟨mode, hbound, rfl⟩, rfl⟩, rfl⟩
    exact ⟨n, mode, rest, hbound, rfl, rfl, by simp⟩
  · rintro ⟨n, mode, rest, hbound, rfl, rfl, rfl⟩
    exact ⟨rest, ⟨n, ⟨mode, hbound, rfl⟩, rfl⟩, by simp⟩

/-- The limit of compact integers lies within the widths from
32 on, and beyond the others. -/
theorem limit_le_iff (hwidth : bits ∈ [8, 16, 32, 64, 128]) :
    compactLimit ≤ 2 ^ bits ↔ 32 ≤ bits := by
  revert bits
  decide

theorem withinInner_iff (hid : registry.get? id = some (.compact inner))
    (hinner : registry.get? inner = some (.primitive (.unsigned bits)))
    (hwidth : bits ∈ [8, 16, 32, 64, 128]) :
    WithinInner registry id inner ↔ compactLimit ≤ 2 ^ bits := by
  constructor
  · refine fun h => Nat.le_of_not_lt fun hnarrow => ?_
    -- The first number beyond the inner type is still a compact integer.
    have hwritten : Writable registry id (.unsigned (2 ^ bits)) :=
      (writable_compact_iff hid).mpr ⟨2 ^ bits, .unsigned _, hnarrow⟩
    obtain ⟨n, hn, hbound⟩ :=
      (writable_unsigned_iff hinner hwidth).mp (h.written _ hwritten)
    have hsame := hn.unique (.unsigned (2 ^ bits))
    omega
  · intro hwide
    constructor
    case written =>
      intro value hvalue
      obtain ⟨n, hn, hlimit⟩ := (writable_compact_iff hid).mp hvalue
      exact (writable_unsigned_iff hinner hwidth).mpr
        ⟨n, hn, Nat.lt_of_lt_of_le hlimit hwide⟩
    case read =>
      intro bytes value count hread
      obtain ⟨n, mode, rest, hbound, -, rfl, -⟩ := (decode_compact_iff hid).mp hread
      have hlimit := Nat.lt_of_lt_of_le hbound mode.bound_le_limit
      exact (writable_unsigned_iff hinner hwidth).mpr
        ⟨n, .unsigned n, Nat.lt_of_lt_of_le hlimit hwide⟩

/-- A value is written as a compact integer exactly if it is a number below the limit,
and every form of such a number is read; the type that is compacted holds fewer of them
if it is narrower than 32 bits.  So what is written and read stays within this type at
the wider types and only there. -/
theorem compact_in_range_iff (hid : registry.get? id = some (.compact inner))
    (hinner : registry.get? inner = some (.primitive (.unsigned bits)))
    (hwidth : bits ∈ [8, 16, 32, 64, 128]) :
    (∀ value, Writable registry id value ↔ ∃ n : Nat, value.IsInteger n ∧
      n < compactLimit) ∧
    (∀ bytes value count, decode registry id bytes = .ok (value, count) ↔
      ∃ (n : Nat) (mode : CompactMode) (rest : Bytes), n < mode.bound ∧
        bytes = mode.form n ++ rest ∧ value = .unsigned n ∧ count = mode.width) ∧
    (∀ value, Writable registry inner value ↔ ∃ n : Nat, value.IsInteger n ∧ n < 2 ^ bits) ∧
    (WithinInner registry id inner ↔ 32 ≤ bits) := by
  refine ⟨fun value => writable_compact_iff hid,
    fun bytes value count => decode_compact_iff hid,
    fun value => writable_unsigned_iff hinner hwidth, ?_⟩
  rw [withinInner_iff hid hinner hwidth, limit_le_iff hwidth]

/-- Compact integers of one byte and of four bytes. -/
def compactRegistry : TypeRegistry :=
  ⟨[(0, .primitive .u8), (1, .compact 0), (2, .primitive (.unsigned 32)), (3, .compact 2)]⟩

theorem compact_in_range_iff_widths :
    compactRegistry.get? 1 = some (.compact 0) ∧
      compactRegistry.get? 0 = some (.primitive (.unsigned 8)) ∧
      compactRegistry.get? 3 = some (.compact 2) ∧
      compactRegistry.get? 2 = some (.primitive (.unsigned 32)) ∧
      8 ∈ [8, 16, 32, 64, 128] ∧ 32 ∈ [8, 16, 32, 64, 128] ∧
      ¬ WithinInner compactRegistry 1 0 ∧ WithinInner compactRegistry 3 2 := by
  have hbyte : compactRegistry.get? 1 = some (.compact 0) := rfl
  have hbyteInner : compactRegistry.get? 0 = some (.primitive (.unsigned 8)) := rfl
  have hword : compactRegistry.get? 3 = some (.compact 2) := rfl
  have hwordInner : compactRegistry.get? 2 = some (.primitive (.unsigned 32)) := rfl
  obtain ⟨-, -, -, hnarrow⟩ := compact_in_range_iff hbyte hbyteInner (by decide)
  obtain ⟨-, -, -, hwide⟩ := compact_in_range_iff hword hwordInner (by decide)
  exact ⟨hbyte, hbyteInner, hword, hwordInner, by decide, by decide,
    fun hwithin => absurd (hnarrow.mp hwithin) (by decide), hwide.mpr (by decide)⟩

/-- A number that one byte cannot hold is written and read as a
compact integer of one byte. -/
theorem compact_exceeds_inner :
    compactRegistry.get? 1 = some (.compact 0) ∧
      compactRegistry.get? 0 = some (.primitive .u8) ∧
      encode compactRegistry 1 (.unsigned 300) = .ok [0xb1, 0x04] ∧
      decode compactRegistry 1 [0xb1, 0x04] = .ok (.unsigned 300, 2) ∧
      encode compactRegistry 0 (.unsigned 300) =
        .error (.encodingMismatch 0 "u8" "unsigned integer") :=
  ⟨rfl, rfl, rfl, rfl, rfl⟩

end Codec

end ChainClient

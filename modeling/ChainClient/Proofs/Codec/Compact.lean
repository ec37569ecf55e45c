import ChainClient.Proofs.Codec.Reading

/-! Compact integers.  A number has one form for each mode that can hold it: all of them are
read, and the shortest is written. -/

namespace ChainClient.Codec

inductive CompactMode where
  | one
  | two
  | four
  deriving DecidableEq

namespace CompactMode

def width : CompactMode → Nat
  | one => 1
  | two => 2
  | four => 4

/-- The two low bits of the first byte. -/
def mark : CompactMode → Nat
  | one => 0
  | two => 1
  | four => 2

/-- The first number that is too large for the mode. -/
def bound : CompactMode → Nat
  | one => 2 ^ 6
  | two => 2 ^ 14
  | four => 2 ^ 30

/-- A number written in a mode. -/
def form (mode : CompactMode) (n : Nat) : Bytes :=
  Bytes.ofNatLE mode.width (4 * n + mode.mark)

theorem mark_lt (mode : CompactMode) : mode.mark < 4 := by
  cases mode <;> decide

theorem bound_le_limit (mode : CompactMode) : mode.bound ≤ compactLimit := by
  cases mode <;> decide

theorem four_mul_bound (mode : CompactMode) : 4 * mode.bound = 256 ^ mode.width := by
  cases mode <;> decide

theorem eq_of_width_eq {mode other : CompactMode} (h : mode.width = other.width) :
    mode = other := by
  revert h
  cases mode <;> cases other <;> decide

@[simp] theorem length_form (mode : CompactMode) (n : Nat) :
    (mode.form n).length = mode.width := by
  simp [form]

theorem toNatLE_form {mode : CompactMode} {n : Nat} (h : n < mode.bound) :
    (mode.form n).toNatLE = 4 * n + mode.mark := by
  have hmark := mode.mark_lt
  have hwidth := mode.four_mul_bound
  rw [form, Bytes.toNatLE_ofNatLE, Nat.mod_eq_of_lt (by omega)]

/-- The form of a number starts with a byte that announces its mode. -/
theorem form_eq_cons (mode : CompactMode) (n : Nat) :
    ∃ first rest, mode.form n = first :: rest ∧ first.toNat % 4 = mode.mark := by
  have hmark := mode.mark_lt
  have hfirst : (UInt8.ofNat (4 * n + mode.mark)).toNat % 4 = mode.mark := by
    rw [UInt8.toNat_ofNat']
    omega
  cases mode with
  | one => exact ⟨_, _, rfl, hfirst⟩
  | two => exact ⟨_, _, rfl, hfirst⟩
  | four => exact ⟨_, _, rfl, hfirst⟩

end CompactMode

theorem compactWidth?_eq_some {first : UInt8} {width : Nat} :
    compactWidth? first = some width ↔
      ∃ mode : CompactMode, mode.width = width ∧ first.toNat % 4 = mode.mark := by
  have hmod : first.toNat % 4 < 4 := Nat.mod_lt _ (by decide)
  generalize hrest : first.toNat % 4 = low at hmod
  simp only [compactWidth?, hrest]
  constructor
  · intro h
    match low, h with
    | 0, h => exact ⟨.one, by simpa [CompactMode.width] using h, rfl⟩
    | 1, h => exact ⟨.two, by simpa [CompactMode.width] using h, rfl⟩
    | 2, h => exact ⟨.four, by simpa [CompactMode.width] using h, rfl⟩
  · rintro ⟨mode, rfl, rfl⟩
    cases mode <;> rfl

theorem decodeCompact_eq_ok {input rest : Bytes} {n : Nat} :
    decodeCompact input = .ok (n, rest) ↔
      ∃ mode : CompactMode, n < mode.bound ∧ input = mode.form n ++ rest := by
  constructor
  · intro h
    simp only [decodeCompact, bind_eq_ok, Prod.exists] at h
    obtain ⟨first, others, hfirst, h⟩ := h
    cases hwidth : compactWidth? first with
    | none => simp [hwidth] at h
    | some width =>
        simp only [hwidth, bind_eq_ok, Prod.exists, Except.ok.injEq, Prod.mk.injEq] at h
        obtain ⟨raw, remaining, hraw, rfl, rfl⟩ := h
        obtain ⟨mode, rfl, hmark⟩ := compactWidth?_eq_some.mp hwidth
        obtain ⟨rfl, hlength⟩ := take_eq_ok.mp hraw
        have hlow : raw.toNatLE % 4 = mode.mark := by
          cases raw with
          | nil => cases mode <;> contradiction
          | cons byte tail =>
              have hbyte : byte = first := by
                simpa using congrArg (·.head?) (takeByte_eq_ok.mp hfirst)
              rw [Bytes.toNatLE_cons, hbyte]
              omega
        have hlt : raw.toNatLE < 4 * mode.bound := by
          rw [mode.four_mul_bound, ← hlength]
          exact raw.toNatLE_lt
        have hsplit : 4 * (raw.toNatLE / 4) + mode.mark = raw.toNatLE := by omega
        refine ⟨mode, by omega, ?_⟩
        rw [CompactMode.form, hsplit, ← hlength, Bytes.ofNatLE_toNatLE]
  · rintro ⟨mode, hbound, rfl⟩
    obtain ⟨first, others, hform, hmark⟩ := mode.form_eq_cons n
    have hwidth := compactWidth?_eq_some.mpr ⟨mode, rfl, hmark⟩
    have htake : take mode.width (mode.form n ++ rest) = .ok (mode.form n, rest) :=
      take_eq_ok.mpr ⟨rfl, mode.length_form n⟩
    have hvalue : (4 * n + mode.mark) / 4 = n := by
      have := mode.mark_lt
      omega
    have hfirst : takeByte (mode.form n ++ rest) = .ok (first, others ++ rest) := by
      rw [hform]
      rfl
    simp only [decodeCompact, hfirst, ok_bind, hwidth, htake,
      CompactMode.toNatLE_form hbound, hvalue]

theorem form_reads {mode : CompactMode} {n : Nat} (h : n < mode.bound) :
    Reads decodeCompact (mode.form n) n :=
  fun _ => decodeCompact_eq_ok.mpr ⟨mode, h, rfl⟩

/-- The mode holds the number, and no shorter mode does. -/
structure CompactMode.Shortest (mode : CompactMode) (n : Nat) : Prop where
  holds : n < mode.bound
  least : ∀ other : CompactMode, n < other.bound → mode.width ≤ other.width

theorem CompactMode.exists_shortest {n : Nat} (h : n < compactLimit) :
    ∃ mode : CompactMode, mode.Shortest n := by
  by_cases hone : n < 2 ^ 6
  · exact ⟨.one, hone, fun other _ => by cases other <;> decide⟩
  by_cases htwo : n < 2 ^ 14
  · refine ⟨.two, htwo, fun other hother => ?_⟩
    cases other with
    | one => exact absurd hother hone
    | two => decide
    | four => decide
  · refine ⟨.four, h, fun other hother => ?_⟩
    cases other with
    | one => exact absurd hother hone
    | two => exact absurd hother htwo
    | four => decide

theorem encodeCompact_of_shortest {mode : CompactMode} {n : Nat} (h : mode.Shortest n) :
    encodeCompact n = .ok (mode.form n) := by
  obtain ⟨hholds, hleast⟩ := h
  have hone := hleast .one
  have htwo := hleast .two
  rw [encodeCompact]
  cases mode with
  | one => exact if_pos hholds
  | two =>
      simp only [CompactMode.bound, CompactMode.width] at hone
      rw [if_neg (by omega)]
      exact if_pos hholds
  | four =>
      simp only [CompactMode.bound, CompactMode.width] at hone htwo
      rw [if_neg (by omega), if_neg (by omega)]
      exact if_pos hholds

theorem encodeCompact_of_limit_le {n : Nat} (h : compactLimit ≤ n) :
    encodeCompact n = .error (.compactOutOfRange n) := by
  have hlarge : 2 ^ 30 ≤ n := h
  rw [encodeCompact, if_neg (by omega), if_neg (by omega), if_neg (by omega)]

/-- The form that is written is the shortest of those that are read. -/
theorem encodeCompact_eq_ok {n : Nat} {written : Bytes} :
    encodeCompact n = .ok written ↔
      ∃ mode : CompactMode, mode.Shortest n ∧ written = mode.form n := by
  constructor
  · intro h
    by_cases hlimit : n < compactLimit
    · obtain ⟨mode, hshortest⟩ := CompactMode.exists_shortest hlimit
      rw [encodeCompact_of_shortest hshortest] at h
      exact ⟨mode, hshortest, (Except.ok.inj h).symm⟩
    · rw [encodeCompact_of_limit_le (by omega)] at h
      contradiction
  · rintro ⟨mode, hshortest, rfl⟩
    exact encodeCompact_of_shortest hshortest

theorem encodeCompact_reads {n : Nat} {written : Bytes}
    (h : encodeCompact n = .ok written) : Reads decodeCompact written n := by
  obtain ⟨mode, hshortest, rfl⟩ := encodeCompact_eq_ok.mp h
  exact form_reads hshortest.holds

end ChainClient.Codec

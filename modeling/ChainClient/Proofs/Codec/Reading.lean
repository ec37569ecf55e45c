import ChainClient.Codec.Decode
import ChainClient.Proofs.Outcome

/-! What it is to be read off the front of an input, whatever comes after it. -/

namespace ChainClient.Codec

abbrev Reader (β : Type) := Bytes → Except CodecError (β × Bytes)

/-- The reader takes exactly `written` off every input that starts with it. -/
def Reads (read : Reader β) (written : Bytes) (value : β) : Prop :=
  ∀ suffix, read (written ++ suffix) = .ok (value, suffix)

theorem Reads.exact {read : Reader β} {written : Bytes} {value : β}
    (h : Reads read written value) : read written = .ok (value, []) := by
  simpa using h []

/-! Splitting an input. -/

theorem take_eq_ok {count : Nat} {input raw rest : Bytes} :
    take count input = .ok (raw, rest) ↔ input = raw ++ rest ∧ raw.length = count := by
  rw [take, split?_eq]
  by_cases h : count ≤ input.length
  · simp only [if_pos h, Except.ok.injEq, Prod.mk.injEq]
    constructor
    · rintro ⟨rfl, rfl⟩
      exact ⟨(List.take_append_drop count input).symm, List.length_take_of_le h⟩
    · rintro ⟨rfl, rfl⟩
      simp
  · simp only [if_neg h, reduceCtorEq, false_iff, not_and]
    rintro rfl hlength
    apply h
    simp [hlength]

theorem take_reads {count : Nat} {raw : Bytes} (h : raw.length = count) :
    Reads (take count) raw raw :=
  fun _ => take_eq_ok.mpr ⟨rfl, h⟩

@[simp] theorem takeByte_cons (byte : UInt8) (rest : Bytes) :
    takeByte (byte :: rest) = .ok (byte, rest) := rfl

theorem takeByte_eq_ok {input rest : Bytes} {byte : UInt8} :
    takeByte input = .ok (byte, rest) ↔ input = byte :: rest := by
  cases input with
  | nil => simp [takeByte]
  | cons first others => simp [takeByte]

end ChainClient.Codec

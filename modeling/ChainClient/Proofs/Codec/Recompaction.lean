import ChainClient.Proofs.Codec.Compact

/-! Byte strings that differ only in compact integers that one
of them has in a longer form. -/

namespace ChainClient.Codec

/-- `written` is `raw` with some of its compact integers in their shortest form. -/
inductive Recompacts : (raw written : Bytes) → Prop where
  | same (bytes : Bytes) : Recompacts bytes bytes
  | compact {raw written : Bytes} {n : Nat} :
      decodeCompact raw = .ok (n, []) → encodeCompact n = .ok written →
        Recompacts raw written
  | append {raw written others othersWritten : Bytes} :
      Recompacts raw written → Recompacts others othersWritten →
        Recompacts (raw ++ others) (written ++ othersWritten)

namespace Recompacts

theorem cons (byte : UInt8) {raw written : Bytes} (h : Recompacts raw written) :
    Recompacts (byte :: raw) (byte :: written) :=
  append (same [byte]) h

theorem form {mode shortest : CompactMode} {n : Nat} (hbound : n < mode.bound)
    (hshortest : shortest.Shortest n) : Recompacts (mode.form n) (shortest.form n) :=
  compact (form_reads hbound).exact (encodeCompact_of_shortest hshortest)

/-- Both sides of a compact integer, by their modes. -/
theorem compact_forms {raw written : Bytes} {n : Nat}
    (hraw : decodeCompact raw = .ok (n, [])) (hwritten : encodeCompact n = .ok written) :
    ∃ mode shortest : CompactMode,
      raw = mode.form n ∧ written = shortest.form n ∧ shortest.width ≤ mode.width := by
  obtain ⟨mode, hbound, hraw⟩ := decodeCompact_eq_ok.mp hraw
  obtain ⟨shortest, hshortest, hwritten⟩ := encodeCompact_eq_ok.mp hwritten
  exact ⟨mode, shortest, by simpa using hraw, hwritten, hshortest.least mode hbound⟩

theorem length_le {raw written : Bytes} (h : Recompacts raw written) :
    written.length ≤ raw.length := by
  induction h with
  | same bytes => exact Nat.le_refl _
  | compact hraw hwritten =>
      obtain ⟨mode, shortest, rfl, rfl, hle⟩ := compact_forms hraw hwritten
      simpa using hle
  | append _ _ ihFirst ihSecond =>
      simp only [List.length_append]
      omega

theorem eq_of_length_eq {raw written : Bytes} (h : Recompacts raw written)
    (hlength : written.length = raw.length) : written = raw := by
  induction h with
  | same bytes => rfl
  | compact hraw hwritten =>
      obtain ⟨mode, shortest, rfl, rfl, _⟩ := compact_forms hraw hwritten
      have hmode : shortest = mode := CompactMode.eq_of_width_eq (by simpa using hlength)
      rw [hmode]
  | append hfirst hsecond ihFirst ihSecond =>
      have hfirstLength := hfirst.length_le
      have hsecondLength := hsecond.length_le
      simp only [List.length_append] at hlength
      rw [ihFirst (by omega), ihSecond (by omega)]

end Recompacts

end ChainClient.Codec

import ChainClient.Proofs.Codec.RoundTrip

/-! Reading depends on nothing but the bytes that it takes.  Whatever comes after them, it
gives the same value; with fewer of them it tells that the input has ended; and what it
refuses for another reason, it refuses whatever comes after. -/

namespace ChainClient

/-- The input ends before what is to be read of it does. -/
inductive CodecError.IsEnd : CodecError → Prop
  | unexpectedEnd {needed remaining : Nat} (h : remaining < needed) :
      IsEnd (.unexpectedEnd needed remaining)

namespace Codec

variable {α β γ : Type}

/-- What a reader makes of an input is told by the bytes that it takes off it. -/
structure Local (read : Reader β) : Prop where
  ok : ∀ ⦃input rest value⦄, read input = .ok (value, rest) →
    ∃ taken, input = taken ++ rest ∧ Reads read taken value ∧
      ∀ fewer < taken.length, ∃ error, read (taken.take fewer) = .error error ∧ error.IsEnd
  error : ∀ ⦃input error⦄, read input = .error error →
    error.IsEnd ∨ ∀ suffix, read (input ++ suffix) = .error error

/-! What readers are made of. -/

theorem local_pure (value : β) : Local fun input => .ok (value, input) where
  ok _ _ _ h := by
    cases h
    exact ⟨[], rfl, fun _ => rfl, nofun⟩
  error _ _ h := nomatch h

theorem local_fail (error : CodecError) : Local (fun _ => .error error : Reader β) where
  ok _ _ _ h := nomatch h
  error _ _ h := .inr fun _ => h

theorem local_bind {read : Reader α} {next : α × Bytes → Except CodecError (β × Bytes)}
    (hread : Local read) (hnext : ∀ value, Local fun rest => next (value, rest)) :
    Local fun input => read input >>= next where
  ok input rest value h := by
    obtain ⟨⟨first, middle⟩, hfirst, hvalue⟩ := bind_eq_ok.mp h
    obtain ⟨taken, rfl, hreads, hfewer⟩ := hread.ok hfirst
    obtain ⟨others, rfl, hreadsOthers, hfewerOthers⟩ := (hnext first).ok hvalue
    refine ⟨taken ++ others, by simp, fun suffix => ?_, fun fewer hlt => ?_⟩
    · simp only [List.append_assoc, hreads (others ++ suffix), ok_bind]
      exact hreadsOthers suffix
    · rw [List.length_append] at hlt
      rw [List.take_append]
      by_cases hshort : fewer < taken.length
      · obtain ⟨error, herror, hend⟩ := hfewer fewer hshort
        refine ⟨error, ?_, hend⟩
        have hnone : fewer - taken.length = 0 := by omega
        simp only [hnone, List.take_zero, List.append_nil, herror]
        rfl
      · have hall : taken.take fewer = taken := List.take_of_length_le (by omega)
        simp only [hall, hreads _, ok_bind]
        exact hfewerOthers (fewer - taken.length) (by omega)
  error input error h := by
    cases hfirst : read input with
    | error other =>
        simp only [hfirst] at h
        cases h
        rcases hread.error hfirst with hend | hrefused
        · exact .inl hend
        · refine .inr fun suffix => ?_
          simp only [hrefused suffix]
          rfl
    | ok outcome =>
        obtain ⟨first, middle⟩ := outcome
        obtain ⟨taken, rfl, hreads, -⟩ := hread.ok hfirst
        simp only [hfirst, ok_bind] at h
        rcases (hnext first).error h with hend | hrefused
        · exact .inl hend
        · refine .inr fun suffix => ?_
          simp only [List.append_assoc, hreads (middle ++ suffix), ok_bind]
          exact hrefused suffix

theorem local_map {read : Reader α} (hread : Local read) (f : α → β) :
    Local fun input => read input >>= fun parts => .ok (f parts.1, parts.2) :=
  local_bind hread fun value => local_pure (f value)

/-! What is decided without the input makes no difference. -/

theorem local_ite (p : Prop) [Decidable p] {read other : Reader β} (hread : Local read)
    (hother : Local other) : Local fun input => if p then read input else other input := by
  by_cases h : p
  · simpa only [if_pos h] using hread
  · simpa only [if_neg h] using hother

theorem local_choose (first : Except CodecError γ) {next : γ → Reader β}
    (hnext : ∀ choice, Local (next choice)) :
    Local fun input => first >>= (next · input) := by
  cases first with
  | error error => exact local_fail error
  | ok choice => exact hnext choice

theorem local_take (count : Nat) : Local (take count) where
  ok input rest raw h := by
    obtain ⟨rfl, hlength⟩ := take_eq_ok.mp h
    refine ⟨raw, rfl, take_reads hlength, fun fewer hlt => ?_⟩
    have hshort : (raw.take fewer).length < count := by simp; omega
    rw [take, split?_eq, if_neg (by omega)]
    exact ⟨_, rfl, .unexpectedEnd hshort⟩
  error input error h := by
    rw [take, split?_eq] at h
    split at h
    case h_1 => cases h
    case h_2 hnone =>
      cases h
      refine .inl (.unexpectedEnd (Nat.lt_of_not_le fun hle => ?_))
      rw [if_pos hle] at hnone
      cases hnone

theorem takeByte_eq (input : Bytes) :
    takeByte input = (take 1 input >>= fun parts => .ok (parts.1.headD 0, parts.2)) := by
  cases input <;> rfl

theorem local_takeByte : Local takeByte := by
  rw [funext takeByte_eq]
  exact local_map (local_take 1) (·.headD 0)

/-! Scalars. -/

/-- The first byte of a compact integer is looked at before the integer is taken with it. -/
theorem decodeCompact_cons (first : UInt8) (others : Bytes) :
    decodeCompact (first :: others) =
      match compactWidth? first with
      | some width =>
          (fun parts => (parts.1.toNatLE / 4, parts.2)) <$> take width (first :: others)
      | none => .error .unsupportedCompactMode := by
  simp only [decodeCompact, takeByte_cons, ok_bind]
  cases compactWidth? first <;> rfl

theorem local_decodeCompact : Local decodeCompact where
  ok input rest n h := by
    obtain ⟨mode, hbound, rfl⟩ := decodeCompact_eq_ok.mp h
    refine ⟨mode.form n, rfl, form_reads hbound, fun fewer hlt => ?_⟩
    obtain ⟨first, others, hform, hmark⟩ := mode.form_eq_cons n
    cases fewer with
    | zero => exact ⟨_, rfl, .unexpectedEnd Nat.zero_lt_one⟩
    | succ fewer =>
        have hwidth := compactWidth?_eq_some.mpr ⟨mode, rfl, hmark⟩
        rw [CompactMode.length_form] at hlt
        have hshort : (first :: others.take fewer).length < mode.width := by simp; omega
        rw [hform, List.take_succ_cons, decodeCompact_cons, hwidth]
        simp only [take, split?_eq, if_neg (Nat.not_le.mpr hshort)]
        exact ⟨_, rfl, .unexpectedEnd hshort⟩
  error input error h := by
    cases input with
    | nil =>
        cases h
        exact .inl (.unexpectedEnd Nat.zero_lt_one)
    | cons first others =>
        rw [decodeCompact_cons] at h
        simp only [List.cons_append, decodeCompact_cons]
        cases hwidth : compactWidth? first with
        | none =>
            rw [hwidth] at h
            exact .inr fun _ => h
        | some width =>
            rw [hwidth] at h
            exact (local_bind (local_take width) fun raw =>
              local_pure (raw.toNatLE / 4)).error h

theorem local_decodeBool : Local decodeBool :=
  local_bind local_takeByte fun byte =>
    local_ite (byte = 0) (local_pure _) (local_ite (byte = 1) (local_pure _) (local_fail _))

theorem local_decodePrimitive (id : TypeId) (primitive : Primitive) :
    Local (decodePrimitive id primitive) := by
  unfold decodePrimitive
  cases primitive.byteLength? with
  | none => exact local_fail _
  | some length =>
      exact local_bind (local_take length) fun raw =>
        local_ite (primitive.signed = true) (local_pure _) (local_pure _)

theorem local_decodeString : Local decodeString := by
  refine local_bind local_decodeCompact fun length => ?_
  refine local_bind (local_take length) fun raw => ?_
  dsimp only
  cases raw.toString? with
  | some text => exact local_pure _
  | none => exact local_fail _

theorem local_decodeCompactValue : Local decodeCompactValue :=
  local_map local_decodeCompact Value.unsigned

/-! Values one after another. -/

theorem local_decodeEach {read : α → Reader Value} (h : ∀ item, Local (read item))
    (items : List α) : Local (decodeEach read items) := by
  induction items with
  | nil => exact local_pure []
  | cons item items ih =>
      refine local_bind (h item) fun value => ?_
      exact local_map ih (value :: ·)

theorem local_decodeRepeated {read : Reader Value} (h : Local read) (length : Nat) :
    Local (decodeRepeated read length) := by
  rw [decodeRepeated_eq]
  exact local_decodeEach (fun _ => h) _

theorem local_listLength (length? : Option Nat) : Local (listLength length?) := by
  cases length? with
  | some length => exact local_pure length
  | none => exact local_decodeCompact

theorem local_within (registry : TypeRegistry) (budget : Nat) (id : TypeId) :
    Local (decodeWithin registry budget id) := by
  -- Registries may be cyclic, so the induction is on the depth that is left.
  induction budget generalizing id with
  | zero =>
      rw [funext (decodeWithin_zero registry id)]
      exact local_fail _
  | succ budget ih =>
      have hfield : ∀ field : Field, Local (decodeWithin registry budget field.type) :=
        fun field => ih field.type
      change Local fun input => decodeWithin registry (budget + 1) id input
      simp only [decodeWithin]
      refine local_choose (resolve registry id) fun descriptor => ?_
      cases descriptor with
      | boolean => exact local_decodeBool
      | primitive width => exact local_decodePrimitive id width
      | string => exact local_decodeString
      | compact inner => exact local_decodeCompactValue
      | option inner =>
          refine local_bind local_takeByte fun byte => ?_
          dsimp only
          refine local_ite (byte = 0) (local_pure _)
            (local_ite (byte = 1) (local_bind (ih inner) fun value => ?_) (local_fail _))
          refine local_choose (resolve registry inner) fun looked => ?_
          dsimp only
          cases looked <;> exact local_pure _
      | result ok err =>
          refine local_bind local_takeByte fun byte => ?_
          dsimp only
          exact local_ite (byte = 0)
            (local_map (ih ok) fun value => Value.variant "Result::Ok" 0 [value])
            (local_ite (byte = 1)
              (local_map (ih err) fun value => Value.variant "Result::Err" 1 [value])
              (local_fail _))
      | tuple types => exact local_map (local_decodeEach ih types) Value.sequence
      | struct fields =>
          exact local_map (local_decodeEach hfield fields) fun values =>
            Value.composite ((fieldNames fields).zip values)
      | enum name variants =>
          refine local_bind local_takeByte fun byte => ?_
          cases hfind : variants.find? (·.index = byte) with
          | none =>
              simp only [hfind]
              exact local_fail _
          | some variant =>
              simp only [hfind]
              exact local_map (local_decodeEach hfield variant.fields) fun values =>
                Value.variant (name ++ "::" ++ variant.name) variant.index values
      | list element length? =>
          exact local_bind (local_listLength length?) fun length =>
            local_ite (registry.isByte element = true)
              (local_map (local_take length) Value.ofBytes)
              (local_map (local_decodeRepeated (ih element) length) Value.sequence)
      | unsupported tag => exact local_fail _

variable {registry : TypeRegistry} {id : TypeId} {bytes : Bytes}

theorem decode_eq_error {error : CodecError} :
    decode registry id bytes = .error error ↔
      decodeWithin registry maxDepth id bytes = .error error := by
  simp only [decode, decodePrefix]
  cases decodeWithin registry maxDepth id bytes with
  | error other => constructor <;> intro h <;> cases h <;> rfl
  | ok outcome => constructor <;> intro h <;> cases h

/-- The bytes that a value takes are enough to read it and none of them can be
left out, and bytes that are refused are refused whatever comes after them, unless
it is their end that is missing. -/
theorem decode_told_by_taken (registry : TypeRegistry) (id : TypeId) (bytes : Bytes) :
    (∀ value count, decode registry id bytes = .ok (value, count) →
      count ≤ bytes.length ∧
      (∀ other, bytes.take count <+: other →
        decode registry id other = .ok (value, count)) ∧
      ∀ fewer < count, ∃ error, decode registry id (bytes.take fewer) = .error error ∧
        error.IsEnd) ∧
    ∀ error, decode registry id bytes = .error error → ¬ error.IsEnd →
      ∀ suffix, decode registry id (bytes ++ suffix) = .error error := by
  have hlocal := local_within registry maxDepth id
  constructor
  · intro value count h
    obtain ⟨rest, hread, rfl⟩ := decode_eq_ok.mp h
    obtain ⟨taken, rfl, hreads, hfewer⟩ := hlocal.ok hread
    have hcount : (taken ++ rest).length - rest.length = taken.length := by simp
    rw [hcount, List.take_left]
    refine ⟨by simp, ?_, fun fewer hlt => ?_⟩
    · rintro other ⟨suffix, rfl⟩
      exact decode_of_reads hreads suffix
    · obtain ⟨error, herror, hend⟩ := hfewer fewer hlt
      rw [List.take_append_of_le_length (Nat.le_of_lt hlt)]
      exact ⟨error, decode_eq_error.mpr herror, hend⟩
  · intro error h hend suffix
    rcases hlocal.error (decode_eq_error.mp h) with hcut | hrefused
    · exact absurd hcut hend
    · exact decode_eq_error.mpr (hrefused suffix)

/-- A status whose last byte is missing, and one that cannot be made good. -/
theorem decode_told_by_taken_status :
    decode statusRegistry 7 [2, 1, 1, 5, 0, 1, 0, 8, 7, 9, 255] = .ok (busyStatus, 10) ∧
      (∀ suffix, decode statusRegistry 7 ([2, 1, 1, 5, 0, 1, 0, 8, 7, 9] ++ suffix) =
        .ok (busyStatus, 10)) ∧
      (∃ error, decode statusRegistry 7 [2, 1, 1, 5, 0, 1, 0, 8, 7] = .error error ∧
        error.IsEnd) ∧
      decode statusRegistry 7 [2, 7] = .error (.invalidVariantIndex "Option" 7) ∧
      ∀ suffix, decode statusRegistry 7 ([2, 7] ++ suffix) =
        .error (.invalidVariantIndex "Option" 7) := by
  have hdecode : decode statusRegistry 7 [2, 1, 1, 5, 0, 1, 0, 8, 7, 9, 255] =
      .ok (busyStatus, 10) := rfl
  have herror : decode statusRegistry 7 [2, 7] =
      .error (.invalidVariantIndex "Option" 7) := rfl
  obtain ⟨-, hother, hfewer⟩ :=
    (decode_told_by_taken statusRegistry 7 _).1 busyStatus 10 hdecode
  exact ⟨hdecode, fun suffix => hother _ (List.prefix_append _ suffix),
    hfewer 9 (by decide),
    herror, (decode_told_by_taken statusRegistry 7 _).2 _ herror nofun⟩

end Codec

end ChainClient

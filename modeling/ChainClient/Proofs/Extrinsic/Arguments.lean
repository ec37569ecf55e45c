import ChainClient.Proofs.Codec.RoundTrip
import ChainClient.Proofs.Extrinsic.Call
import Mathlib.Data.List.Forall2

/-! The arguments of a call, against the values that are read from its bytes. -/

namespace ChainClient

open Codec

variable {registry : TypeRegistry} {palletIndex : UInt8} {call : Call} {params : List Value}

/-- What is read wherever the bytes of the argument stand. -/
def TypeRegistry.StandsFor (registry : TypeRegistry) (value : Value)
    (argument : Value × Field) : Prop :=
  ∃ written, encode registry argument.2.type argument.1 = .ok written ∧
    Reads (decodePrefix registry argument.2.type) written value

/-- The two indices, and then nothing but one value for each argument, in order. -/
def TypeRegistry.KeepsArguments (registry : TypeRegistry) (palletIndex : UInt8)
    (call : Call) (params : List Value) (full : Bytes) : Prop :=
  ∃ written values, full = palletIndex :: call.index :: written ∧
    decodeEach (fun field => decodePrefix registry field.type) call.fields written =
      .ok (values, []) ∧
    values.length = params.length ∧
    List.Forall₂ registry.StandsFor values (params.zip call.fields)

/-! The arguments that are written. -/

theorem values_of_encodeFields (hindices : registry.DistinctVariantIndices)
    {fields : List Field} (hlength : params.length = fields.length) {written : Bytes}
    (h : encodeFields (encodeWithin registry maxDepth) fields params = .ok written) :
    ∃ values,
      Reads (decodeEach (fun field => decodePrefix registry field.type) fields)
        written values ∧
      List.Forall₂ registry.StandsFor values (params.zip fields) := by
  induction fields generalizing params written with
  | nil =>
      obtain rfl := List.eq_nil_of_length_eq_zero hlength
      obtain rfl := Except.ok.inj h
      exact ⟨[], each_reads_nil _, .nil⟩
  | cons field fields ih =>
      match params with
      | param :: params =>
          obtain ⟨first, rest, hfirst, hrest, rfl⟩ := encodeZip_cons_eq_ok.mp h
          obtain ⟨value, hvalue, -⟩ := settles_within hindices maxDepth field.type hfirst
          obtain ⟨values, hvalues, hstand⟩ := ih (by simpa using hlength) hrest
          have hstands : registry.StandsFor value (param, field) := ⟨first, hfirst, hvalue⟩
          exact ⟨value :: values, each_reads_cons hvalue hvalues, .cons hstands hstand⟩

theorem encodeArguments_eq (registry : TypeRegistry) (arguments : List (Value × Field)) :
    encodeArguments registry arguments =
      List.flatten <$> arguments.mapM (encodeArgument registry) := by
  induction arguments with
  | nil => rfl
  | cons argument arguments ih =>
      rw [encodeArguments, List.mapM_cons, ih]
      cases encodeArgument registry argument with
      | error error => rfl
      | ok first => cases arguments.mapM (encodeArgument registry) <;> rfl

theorem encodes_of_encodeArguments {arguments : List (Value × Field)} {written : Bytes}
    (h : encodeArguments registry arguments = .ok written) :
    ∀ argument ∈ arguments, ∃ first,
      encode registry argument.2.type argument.1 = .ok first := by
  rw [encodeArguments_eq] at h
  obtain ⟨parts, hparts, -⟩ := map_eq_ok.mp h
  intro argument hmem
  obtain ⟨first, hfirst⟩ := ok_of_mem_mapM hparts argument hmem
  exact ⟨first, mapError_eq_ok.mp hfirst⟩

theorem cause_of_encodeArguments {arguments : List (Value × Field)} {error : ExtrinsicError}
    (h : encodeArguments registry arguments = .error error) :
    ∃ argument ∈ arguments, ∃ cause,
      encode registry argument.2.type argument.1 = .error cause ∧
      error = .argument (registry.tagOf argument.2.type) argument.1.render cause := by
  rw [encodeArguments_eq] at h
  obtain ⟨argument, hmem, hfails⟩ := error_of_mapM (map_eq_error.mp h)
  obtain ⟨cause, hcause, rfl⟩ := mapError_eq_error.mp hfails
  exact ⟨argument, hmem, cause, hcause, rfl⟩

/-! The call.  Arguments beyond its fields are never looked at. -/

theorem encodeCall_take (hle : call.fields.length ≤ params.length) :
    encodeCall registry palletIndex call params =
      encodeCall registry palletIndex call (params.take call.fields.length) := by
  -- Pairing stops with the fields, and only too few arguments are counted.
  have hzip : (params.take call.fields.length).zip call.fields =
      params.zip call.fields := by
    rw [@List.zip_eq_zip_take_min _ _ params, Nat.min_eq_right hle, List.take_length]
  rw [encodeCall, encodeCall, hzip, if_neg (by omega), if_neg (by simp [hle])]

theorem encodes_of_encodeCall {full : Bytes}
    (h : encodeCall registry palletIndex call params = .ok full) :
    call.fields.length ≤ params.length ∧
      ∀ argument ∈ params.zip call.fields,
        ∃ written, encode registry argument.2.type argument.1 = .ok written := by
  rw [encodeCall] at h
  split at h
  case isTrue => cases h
  case isFalse hlength =>
    obtain ⟨written, hwritten, -⟩ := bind_eq_ok.mp h
    exact ⟨by omega, encodes_of_encodeArguments hwritten⟩

theorem cause_of_encodeCall {error : ExtrinsicError}
    (h : encodeCall registry palletIndex call params = .error error) :
    (params.length < call.fields.length ∧
        error = .argumentCount call.fields.length params.length) ∨
      ∃ argument ∈ params.zip call.fields, ∃ cause,
        encode registry argument.2.type argument.1 = .error cause ∧
        error = .argument (registry.tagOf argument.2.type) argument.1.render cause := by
  rw [encodeCall] at h
  split at h
  case isTrue hfew =>
    cases h
    exact .inl ⟨hfew, rfl⟩
  case isFalse =>
    cases harguments : encodeArguments registry (params.zip call.fields) with
    | ok written =>
        rw [harguments] at h
        cases h
    | error other =>
        rw [harguments] at h
        cases h
        exact .inr (cause_of_encodeArguments harguments)

theorem keepsArguments_of_encodeCall (hindices : registry.DistinctVariantIndices)
    (hlength : params.length = call.fields.length) {full : Bytes}
    (h : encodeCall registry palletIndex call params = .ok full) :
    registry.KeepsArguments palletIndex call params full := by
  obtain ⟨written, hwritten, rfl⟩ := (encodeCall_eq_ok hlength).mp h
  obtain ⟨values, hvalues, hstand⟩ := values_of_encodeFields hindices hlength hwritten
  have hcount : values.length = params.length :=
    (length_of_decodeEach hvalues.exact).trans hlength.symm
  exact ⟨written, values, rfl, hvalues.exact, hcount, hstand⟩

theorem length_of_keepsArguments {full : Bytes}
    (h : registry.KeepsArguments palletIndex call params full) :
    params.length = call.fields.length := by
  obtain ⟨written, values, -, hread, hcount, -⟩ := h
  exact hcount.symm.trans (length_of_decodeEach hread)

/-- A call keeps the arguments that it has fields for.  It keeps all that were given only if
they are as many: too few of them fail the call, and too many do not. -/
theorem encodeCall_keeps_fields (hindices : registry.DistinctVariantIndices)
    (palletIndex : UInt8) (call : Call) (params : List Value) :
    (∀ full, encodeCall registry palletIndex call params = .ok full →
      registry.KeepsArguments palletIndex call (params.take call.fields.length) full ∧
      (registry.KeepsArguments palletIndex call params full ↔
        params.length = call.fields.length)) ∧
    ((∃ full, encodeCall registry palletIndex call params = .ok full) ↔
      call.fields.length ≤ params.length ∧
        ∀ argument ∈ params.zip call.fields,
          ∃ written, encode registry argument.2.type argument.1 = .ok written) ∧
    (∀ error, encodeCall registry palletIndex call params = .error error →
      (params.length < call.fields.length ∧
        error = .argumentCount call.fields.length params.length) ∨
      ∃ argument ∈ params.zip call.fields, ∃ cause,
        encode registry argument.2.type argument.1 = .error cause ∧
        error = .argument (registry.tagOf argument.2.type) argument.1.render cause) := by
  refine ⟨?_, ?_, fun error => cause_of_encodeCall⟩
  · intro full hfull
    obtain ⟨hle, -⟩ := encodes_of_encodeCall hfull
    constructor
    · apply keepsArguments_of_encodeCall hindices (by simp [hle])
      rwa [← encodeCall_take hle]
    · exact ⟨length_of_keepsArguments,
        fun hlength => keepsArguments_of_encodeCall hindices hlength hfull⟩
  · constructor
    · rintro ⟨full, hfull⟩
      exact encodes_of_encodeCall hfull
    · rintro ⟨hle, hencodes⟩
      cases hcall : encodeCall registry palletIndex call params with
      | ok full => exact ⟨full, rfl⟩
      | error error =>
          rcases cause_of_encodeCall hcall
            with ⟨hfew, -⟩ | ⟨argument, hmem, cause, hcause, -⟩
          · omega
          · obtain ⟨written, hwritten⟩ := hencodes argument hmem
            rw [hwritten] at hcause
            cases hcause

def tipRegistry : TypeRegistry :=
  ⟨[(0, .primitive (.unsigned 16)), (1, .compact 0), (2, .option 1),
    (3, .enum "Reason" [⟨1, "Thanks", []⟩, ⟨0, "Other", [⟨none, 0⟩]⟩])]⟩

def tipCall : Call := ⟨4, "tip", [⟨some "amount", 2⟩, ⟨some "reason", 3⟩], []⟩

theorem encodeCall_keeps_fields_tip :
    tipRegistry.DistinctVariantIndices ∧
      encodeCall tipRegistry 6 tipCall [.unsigned 64, .string "Thanks"] =
        .ok [6, 4, 1, 1, 1, 1] ∧
      tipRegistry.KeepsArguments 6 tipCall [.unsigned 64, .string "Thanks"]
        [6, 4, 1, 1, 1, 1] ∧
      encodeCall tipRegistry 6 tipCall [.unsigned 64] = .error (.argumentCount 2 1) ∧
      (¬ ∃ full, encodeCall tipRegistry 6 tipCall [.unsigned 64] = .ok full) ∧
      encodeCall tipRegistry 6 tipCall [.unsigned 64, .null] =
        .error (.argument "Reason" "null" (.encodingMismatch 3 "Reason" "null")) ∧
      ∃ argument ∈ [Value.unsigned 64, .null].zip tipCall.fields, ∃ cause,
        encode tipRegistry argument.2.type argument.1 = .error cause ∧
        ExtrinsicError.argument "Reason" "null" (.encodingMismatch 3 "Reason" "null") =
          .argument (tipRegistry.tagOf argument.2.type) argument.1.render cause := by
  have hindices : tipRegistry.DistinctVariantIndices := by decide
  have hfull : encodeCall tipRegistry 6 tipCall [.unsigned 64, .string "Thanks"] =
      .ok [6, 4, 1, 1, 1, 1] := rfl
  have hfew : encodeCall tipRegistry 6 tipCall [.unsigned 64] =
      .error (.argumentCount 2 1) := rfl
  have hnull : encodeCall tipRegistry 6 tipCall [.unsigned 64, .null] =
      .error (.argument "Reason" "null" (.encodingMismatch 3 "Reason" "null")) := rfl
  obtain ⟨hkeeps, -, -⟩ :=
    encodeCall_keeps_fields hindices 6 tipCall [.unsigned 64, .string "Thanks"]
  obtain ⟨-, hencodes, -⟩ := encodeCall_keeps_fields hindices 6 tipCall [.unsigned 64]
  obtain ⟨-, -, hfails⟩ := encodeCall_keeps_fields hindices 6 tipCall [.unsigned 64, .null]
  refine ⟨hindices, hfull, (hkeeps _ hfull).2.mpr rfl, hfew, ?_, hnull, ?_⟩
  · intro hsome
    exact absurd (hencodes.mp hsome).1 (by decide)
  · exact (hfails _ hnull).resolve_left (fun h => absurd h.1 (by decide))

/-- The third argument is in none of the bytes. -/
theorem encodeCall_drops_surplus :
    tipRegistry.DistinctVariantIndices ∧
      encodeCall tipRegistry 6 tipCall [.unsigned 64, .string "Thanks", .bool true] =
        .ok [6, 4, 1, 1, 1, 1] ∧
      tipCall.fields.length = 2 ∧
      ¬ tipRegistry.KeepsArguments 6 tipCall [.unsigned 64, .string "Thanks", .bool true]
        [6, 4, 1, 1, 1, 1] := by
  refine ⟨by decide, rfl, rfl, ?_⟩
  intro hkeeps
  exact absurd (length_of_keepsArguments hkeeps) (by decide)

end ChainClient

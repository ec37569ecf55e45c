import ChainClient.Proofs.Codec.Depth
import ChainClient.Proofs.Codec.RoundTrip

/-! What an option makes of the values of its inner type.  It reads them apart from each
other and from the empty option, whatever the inner type is; it writes them again unless the
inner type is an enum that has the name of the option's own wrapper. -/

namespace ChainClient.Codec

variable {registry : TypeRegistry} {id inner : TypeId} {descriptor : TypeDescriptor}

/-! Reading. -/

theorem not_null_of_decodeWithin {budget : Nat}
    (hinner : registry.get? inner = some descriptor)
    (hoption : ∀ deeper, descriptor ≠ .option deeper) {input rest : Bytes} {value : Value}
    (h : decodeWithin registry budget inner input = .ok (value, rest)) : value ≠ .null := by
  by_cases hlookalike : descriptor.LooksLikeOption
  · cases descriptor with
    | enum name variants =>
        cases budget with
        | zero =>
            rw [decodeWithin_zero] at h
            cases h
        | succ budget =>
            obtain ⟨_, _, _, _, _, _, _, rfl⟩ := (decodeWithin_enum_eq_ok hinner).mp h
            nofun
    | _ => exact hlookalike.elim
  · exact (isBare_of_decodeWithin hinner hoption hlookalike h).not_null

theorem wrapSome_not_null {budget : Nat} (hinner : registry.get? inner = some descriptor)
    {input rest : Bytes} {value : Value}
    (h : decodeWithin registry budget inner input = .ok (value, rest)) :
    wrapSome descriptor value ≠ .null := by
  cases descriptor with
  | option deeper => nofun
  | _ => exact not_null_of_decodeWithin hinner nofun h

theorem wrapSome_injective (descriptor : TypeDescriptor) :
    Function.Injective (wrapSome descriptor) := by
  intro value other h
  cases descriptor with
  | option deeper =>
      cases h
      rfl
  | _ => exact h

/-- What follows the mark is read as the inner type would read it by
itself, one level less deep. -/
theorem wrapSome_of_decode (hid : registry.get? id = some (.option inner)) {bytes : Bytes}
    {value wrapped : Value} {count total : Nat}
    (h : decode registry inner bytes = .ok (value, count))
    (hwrapped : decode registry id (1 :: bytes) = .ok (wrapped, total)) :
    ∃ descriptor rest, registry.get? inner = some descriptor ∧
      decodeWithin registry (maxDepth - 1) inner bytes = .ok (value, rest) ∧
      wrapped = wrapSome descriptor value := by
  obtain ⟨rest, hread, -⟩ := decode_eq_ok.mp h
  obtain ⟨others, hwrapped, -⟩ := decode_eq_ok.mp hwrapped
  change decodeWithin registry (maxDepth - 1 + 1) id _ = _ at hwrapped
  rcases (decodeWithin_option_eq_ok hid).mp hwrapped with
    ⟨hempty, -⟩ | ⟨input, item, descriptor, hinput, hitem, hinner, rfl⟩
  · cases hempty
  · cases hinput
    have hdeep := decodeWithin_cutShort registry (Nat.sub_le maxDepth 1) inner bytes
    rw [hdeep.ok_of_ok hitem] at hread
    cases hread
    exact ⟨descriptor, _, hinner, hitem, rfl⟩

/-! Writing. -/

/-- The value of an enum that goes by the name of an option and is read
under the name of the wrapper. -/
def Disguised (descriptor : TypeDescriptor) (value : Value) : Prop :=
  descriptor.LooksLikeOption ∧ ∃ index items, value = .variant someName index items

theorem isBare_of_not_disguised {budget : Nat}
    (hinner : registry.get? inner = some descriptor)
    (hoption : ∀ deeper, descriptor ≠ .option deeper) {input rest : Bytes} {value : Value}
    (h : decodeWithin registry budget inner input = .ok (value, rest))
    (hdisguised : ¬ Disguised descriptor value) : IsBare value := by
  by_cases hlookalike : descriptor.LooksLikeOption
  · constructor
    · exact not_null_of_decodeWithin hinner hoption h
    · intro index items heq
      exact hdisguised ⟨hlookalike, index, items, heq⟩
  · exact isBare_of_decodeWithin hinner hoption hlookalike h

theorem wrapSome_of_lookalike (h : descriptor.LooksLikeOption) (value : Value) :
    wrapSome descriptor value = value := by
  cases descriptor with
  | option deeper => exact h.elim
  | _ => rfl

/-- In the wrapper it is the item that is written, and there is one. -/
theorem encodeWithin_option_wrapper {budget : Nat}
    (hid : registry.get? id = some (.option inner)) {index : UInt8} {items : List Value}
    {written : Bytes} :
    encodeWithin registry (budget + 1) (.variant someName index items) id =
      .ok (1 :: written) ↔
      ∃ item, items = [item] ∧ encodeWithin registry budget item inner = .ok written := by
  constructor
  · intro h
    match items with
    | [item] =>
        rw [encodeWithin_option_wrapped hid] at h
        obtain ⟨rest, hrest, heq⟩ := map_eq_ok.mp h
        cases heq
        exact ⟨item, rfl, hrest⟩
    | [] => simp [encodeWithin, resolve, hid, mismatch] at h
    | _ :: _ :: _ => simp [encodeWithin, resolve, hid, mismatch] at h
  · rintro ⟨item, rfl, hitem⟩
    rw [encodeWithin_option_wrapped hid, hitem]
    rfl

theorem encode_wrapSome (hid : registry.get? id = some (.option inner))
    (hinner : registry.get? inner = some descriptor) {input rest : Bytes} {value : Value}
    (h : decodeWithin registry (maxDepth - 1) inner input = .ok (value, rest))
    (hdisguised : ¬ Disguised descriptor value) :
    encode registry id (wrapSome descriptor value) =
      (1 :: ·) <$> encodeWithin registry (maxDepth - 1) value inner := by
  apply encodeWithin_wrapSome_of_bare hid
  intro hoption
  exact isBare_of_not_disguised hinner hoption h hdisguised

/-- The option has one level less to write the value with.  It was read with that many. -/
theorem encodeWithin_of_encode (hnames : registry.DistinctFieldNames)
    (hoption : registry.NoOptionLookalike) {budget : Nat} (hle : budget ≤ maxDepth)
    {input rest written : Bytes} {value : Value}
    (h : decodeWithin registry budget inner input = .ok (value, rest))
    (hwritten : encode registry inner value = .ok written) :
    encodeWithin registry budget value inner = .ok written := by
  obtain ⟨raw, shallow, -, hshallow, -, -⟩ := restores_within hnames hoption budget inner h
  have hdeep := (encodeWithin_cutShort registry hle value inner).ok_of_ok hshallow
  have hsame : shallow = written := Except.ok.inj (hdeep.symm.trans hwritten)
  exact hsame ▸ hshallow

/-- An option reads each value of its inner type as a value of its own.  It writes
this value after the mark, unless it takes it for one in its wrapper: then it
writes only what is in there. -/
theorem option_keeps_inner (hnames : registry.DistinctFieldNames)
    (hid : registry.get? id = some (.option inner)) {bytes : Bytes} {value wrapped : Value}
    {count : Nat} (h : decode registry inner bytes = .ok (value, count))
    (hwrapped : decode registry id (1 :: bytes) = .ok (wrapped, count + 1)) :
    wrapped ≠ .null ∧
    (∀ {others other otherCount otherWrapped},
      decode registry inner others = .ok (other, otherCount) →
        decode registry id (1 :: others) = .ok (otherWrapped, otherCount + 1) →
          other ≠ value → otherWrapped ≠ wrapped) ∧
    (registry.NoOptionLookalike → ∀ written, encode registry inner value = .ok written →
      encode registry id wrapped = .ok (1 :: written)) ∧
    ∃ descriptor, registry.get? inner = some descriptor ∧
      (¬ Disguised descriptor value → ∀ written, encode registry inner value = .ok written →
        encode registry id wrapped = .ok (1 :: written) ∨
          encode registry id wrapped = .error (.recursionLimit maxDepth)) ∧
      (∀ index items, descriptor.LooksLikeOption → value = .variant someName index items →
        wrapped = value ∧ ∀ written, encode registry id wrapped = .ok (1 :: written) ↔
          ∃ item, items = [item] ∧
            encodeWithin registry (maxDepth - 1) item inner = .ok written) := by
  obtain ⟨descriptor, rest, hinner, hread, rfl⟩ := wrapSome_of_decode hid h hwrapped
  refine ⟨wrapSome_not_null hinner hread, ?_, ?_, descriptor, hinner, ?_, ?_⟩
  · intro others other otherCount otherWrapped hother hotherWrapped hne heq
    obtain ⟨_, _, hagain, -, rfl⟩ := wrapSome_of_decode hid hother hotherWrapped
    obtain rfl := Option.some.inj (hinner.symm.trans hagain)
    exact hne (wrapSome_injective descriptor heq)
  · intro hoption written hwritten
    rw [encode_wrapSome hid hinner hread fun hdisguised =>
      hoption id inner descriptor hid hinner hdisguised.1]
    rw [encodeWithin_of_encode hnames hoption (Nat.sub_le maxDepth 1) hread hwritten]
    rfl
  · intro hdisguised written hwritten
    rw [encode_wrapSome hid hinner hread hdisguised]
    rcases (encodeWithin_cutShort registry (Nat.sub_le maxDepth 1) value inner).of_ok
      hwritten with hshallow | hshallow
    · rw [hshallow]
      exact .inl rfl
    · rw [hshallow]
      exact .inr rfl
  · rintro index items hlookalike rfl
    have hsame := wrapSome_of_lookalike hlookalike (.variant someName index items)
    rw [hsame]
    exact ⟨rfl, fun written => encodeWithin_option_wrapper hid⟩

theorem option_keeps_inner_nested :
    decode statusRegistry 2 [0] = .ok (.null, 1) ∧
      decode statusRegistry 3 [1, 0] = .ok (.variant someName 1 [.null], 2) ∧
      decode statusRegistry 2 [1, 4] = .ok (.unsigned 1, 2) ∧
      decode statusRegistry 3 [1, 1, 4] = .ok (.variant someName 1 [.unsigned 1], 3) ∧
      Value.variant someName 1 [.null] ≠ .null ∧
      Value.variant someName 1 [.unsigned 1] ≠ .variant someName 1 [.null] ∧
      encode statusRegistry 2 .null = .ok [0] ∧
      encode statusRegistry 3 (.variant someName 1 [.null]) = .ok [1, 0] := by
  have hnames : statusRegistry.DistinctFieldNames := by decide
  have hoption : statusRegistry.NoOptionLookalike := by decide
  have hnone : decode statusRegistry 2 [0] = .ok (.null, 1) := rfl
  have hwrapped : decode statusRegistry 3 [1, 0] =
      .ok (.variant someName 1 [.null], 2) := rfl
  have hother : decode statusRegistry 2 [1, 4] = .ok (.unsigned 1, 2) := rfl
  have hotherWrapped : decode statusRegistry 3 [1, 1, 4] =
      .ok (.variant someName 1 [.unsigned 1], 3) := rfl
  have hwritten : encode statusRegistry 2 .null = .ok [0] := rfl
  obtain ⟨hnull, hdistinct, hencode, -⟩ := option_keeps_inner hnames rfl hnone hwrapped
  exact ⟨hnone, hwrapped, hother, hotherWrapped, hnull,
    hdistinct hother hotherWrapped nofun, hwritten, hencode hoption _ hwritten⟩

/-- An option of an enum that goes by its name and is no option itself. -/
def lookalikeRegistry : TypeRegistry :=
  ⟨[(0, .enum "Option" [⟨0, "None", []⟩, ⟨1, "Some", [⟨none, 0⟩]⟩, ⟨2, "Unknown", []⟩]),
    (1, .option 0)]⟩

/-- The inner enum loses its own mark, and what is written is
another value of the option. -/
theorem option_loses_lookalike :
    lookalikeRegistry.DistinctVariantIndices ∧ lookalikeRegistry.DistinctFieldNames ∧
      decode lookalikeRegistry 0 [1, 0] =
        .ok (.variant "Option::Some" 1 [.variant "Option::None" 0 []], 2) ∧
      decode lookalikeRegistry 1 [1, 1, 0] =
        .ok (.variant "Option::Some" 1 [.variant "Option::None" 0 []], 3) ∧
      encode lookalikeRegistry 0
        (.variant "Option::Some" 1 [.variant "Option::None" 0 []]) =
        .ok [1, 0] ∧
      encode lookalikeRegistry 1
        (.variant "Option::Some" 1 [.variant "Option::None" 0 []]) =
        .ok [1, 0] ∧
      encode lookalikeRegistry 1
        (.variant "Option::Some" 1 [.variant "Option::None" 0 []]) ≠
        .ok [1, 1, 0] ∧
      decode lookalikeRegistry 1 [1, 0] = .ok (.variant "Option::None" 0 [], 2) :=
  ⟨by decide, by decide, rfl, rfl, rfl, rfl, nofun, rfl⟩

end ChainClient.Codec

import ChainClient.Codec.Encode
import ChainClient.Proofs.Outcome

/-! Reading and writing with fewer levels to go: the same outcome, or the depth runs out. -/

namespace ChainClient.Codec

/-- An outcome, and what comes of it when the depth may run out on the way. -/
inductive CutShort : (less more : Except CodecError α) → Prop
  | same (outcome : Except CodecError α) : CutShort outcome outcome
  | deep (more : Except CodecError α) : CutShort (.error (.recursionLimit maxDepth)) more

namespace CutShort

theorem bind {less more : Except CodecError α} {next next' : α → Except CodecError β}
    (h : CutShort less more) (hnext : ∀ value, CutShort (next value) (next' value)) :
    CutShort (less >>= next) (more >>= next') := by
  cases h with
  | same =>
      cases less with
      | error error => exact .same _
      | ok value => exact hnext value
  | deep => exact .deep _

theorem map {less more : Except CodecError α} (f : α → β) (h : CutShort less more) :
    CutShort (f <$> less) (f <$> more) := by
  cases h with
  | same => exact .same _
  | deep => exact .deep _

theorem ok_of_ok {less more : Except CodecError α} (h : CutShort less more) {value : α}
    (hless : less = .ok value) : more = .ok value := by
  cases h with
  | same => exact hless
  | deep => cases hless

theorem of_ok {less more : Except CodecError α} (h : CutShort less more) {value : α}
    (hmore : more = .ok value) :
    less = .ok value ∨ less = .error (.recursionLimit maxDepth) := by
  cases h with
  | same => exact .inl hmore
  | deep => exact .inr rfl

end CutShort

theorem cutShort_each {write write' : α → Except CodecError Bytes}
    (h : ∀ item, CutShort (write item) (write' item)) (items : List α) :
    CutShort (encodeEach write items) (encodeEach write' items) := by
  induction items with
  | nil => exact .same _
  | cons item items ih =>
      apply (h item).bind
      intro first
      apply ih.bind
      intro rest
      exact .same _

theorem cutShort_named {write write' : Value → TypeId → Except CodecError Bytes}
    (h : ∀ item type, CutShort (write item type) (write' item type)) (id : TypeId)
    (value : Value) (position : Nat) (fields : List Field) :
    CutShort (encodeNamed write id value position fields)
      (encodeNamed write' id value position fields) := by
  induction fields generalizing position with
  | nil => exact .same _
  | cons field fields ih =>
      rw [encodeNamed, encodeNamed]
      cases value.get? (field.effectiveName position) with
      | none => exact .same _
      | some item =>
          apply (h item field.type).bind
          intro first
          apply (ih (position + 1)).bind
          intro rest
          exact .same _

theorem encodeWithin_cutShort (registry : TypeRegistry) {less more : Nat}
    (hle : less ≤ more) (value : Value) (id : TypeId) :
    CutShort (encodeWithin registry less value id)
      (encodeWithin registry more value id) := by
  -- Both sides spend one level at each descriptor, and the lesser one runs out first.
  induction less generalizing more value id with
  | zero =>
      rw [encodeWithin_zero]
      exact .deep _
  | succ less ih =>
      obtain ⟨more, rfl⟩ : ∃ deeper, more = deeper + 1 := ⟨more - 1, by omega⟩
      have hwrite : ∀ item type, CutShort (encodeWithin registry less item type)
          (encodeWithin registry more item type) := fun item type => ih (by omega) item type
      have hfield : ∀ pair : Value × Field, CutShort
          (encodeWithin registry less pair.1 pair.2.type)
          (encodeWithin registry more pair.1 pair.2.type) :=
        fun pair => hwrite pair.1 pair.2.type
      unfold encodeWithin
      apply (CutShort.same (resolve registry id)).bind
      intro descriptor
      cases descriptor with
      | primitive | boolean | string | compact | unsupported => exact .same _
      | option inner =>
          dsimp only
          split
          case h_1 => exact .same _
          case h_2 name index items =>
            split
            case isFalse => exact (hwrite _ inner).map _
            case isTrue =>
              split
              case h_1 item => exact (hwrite item inner).map _
              case h_2 => exact .same _
          case h_3 => exact (hwrite value inner).map _
      | result ok err =>
          dsimp only
          split
          case h_2 => exact .same _
          case h_1 name index items =>
            split
            case isFalse => exact .same _
            case isTrue =>
              split
              case h_1 item => exact (hwrite item _).map _
              case h_2 => exact .same _
      | tuple types =>
          dsimp only
          split
          case h_2 => exact .same _
          case h_1 items =>
            split
            case isFalse => exact .same _
            case isTrue =>
              exact cutShort_each (fun pair : Value × TypeId => hwrite pair.1 pair.2) _
      | struct fields =>
          dsimp only
          split
          case h_1 => exact cutShort_named hwrite id _ 0 fields
          case h_3 => exact .same _
          case h_2 items =>
            split
            case isFalse => exact .same _
            case isTrue => exact cutShort_each hfield _
      | enum name variants =>
          apply (CutShort.same (selectVariant id name variants value)).bind
          intro selected
          dsimp only
          split
          case isFalse => exact .same _
          case isTrue => exact (cutShort_each hfield _).map _
      | list element length? =>
          dsimp only
          split
          case h_1 => exact .same _
          case h_3 => exact .same _
          case h_2 items =>
            apply (CutShort.same (checkLength id _ length? items.length)).bind
            intro _
            apply (CutShort.same (encodeLength length? items.length)).bind
            intro lengthBytes
            apply (cutShort_each (fun item => hwrite item element) items).bind
            intro bytes
            exact .same _

/-! Reading. -/

theorem cutShort_decodeEach {read read' : α → Bytes → Except CodecError (Value × Bytes)}
    (h : ∀ item input, CutShort (read item input) (read' item input)) (items : List α)
    (input : Bytes) :
    CutShort (decodeEach read items input) (decodeEach read' items input) := by
  induction items generalizing input with
  | nil => exact .same _
  | cons item items ih =>
      apply (h item input).bind
      intro first
      apply (ih first.2).bind
      intro others
      exact .same _

theorem cutShort_decodeRepeated {read read' : Bytes → Except CodecError (Value × Bytes)}
    (h : ∀ input, CutShort (read input) (read' input)) (count : Nat) (input : Bytes) :
    CutShort (decodeRepeated read count input) (decodeRepeated read' count input) := by
  induction count generalizing input with
  | zero => exact .same _
  | succ count ih =>
      apply (h input).bind
      intro first
      apply (ih first.2).bind
      intro others
      exact .same _

theorem decodeWithin_cutShort (registry : TypeRegistry) {less more : Nat}
    (hle : less ≤ more) (id : TypeId) (input : Bytes) :
    CutShort (decodeWithin registry less id input)
      (decodeWithin registry more id input) := by
  induction less generalizing more id input with
  | zero =>
      rw [decodeWithin_zero]
      exact .deep _
  | succ less ih =>
      obtain ⟨more, rfl⟩ : ∃ deeper, more = deeper + 1 := ⟨more - 1, by omega⟩
      have hread : ∀ type input, CutShort (decodeWithin registry less type input)
          (decodeWithin registry more type input) :=
            fun type input => ih (by omega) type input
      have hfields : ∀ (fields : List Field) input, CutShort
          (decodeEach (fun field => decodeWithin registry less field.type) fields input)
          (decodeEach (fun field => decodeWithin registry more field.type) fields input) :=
        cutShort_decodeEach fun field => hread field.type
      unfold decodeWithin
      apply (CutShort.same (resolve registry id)).bind
      intro descriptor
      cases descriptor with
      | primitive | boolean | string | compact | unsupported => exact .same _
      | option inner =>
          apply (CutShort.same (takeByte input)).bind
          intro mark
          dsimp only
          split
          case isTrue => exact .same _
          case isFalse =>
            split
            case isTrue => exact (hread inner mark.2).bind fun _ => .same _
            case isFalse => exact .same _
      | result ok err =>
          apply (CutShort.same (takeByte input)).bind
          intro mark
          dsimp only
          split
          case isTrue => exact (hread ok mark.2).bind fun _ => .same _
          case isFalse =>
            split
            case isTrue => exact (hread err mark.2).bind fun _ => .same _
            case isFalse => exact .same _
      | tuple types => exact (cutShort_decodeEach hread types input).bind fun _ => .same _
      | struct fields => exact (hfields fields input).bind fun _ => .same _
      | enum name variants =>
          apply (CutShort.same (takeByte input)).bind
          intro mark
          dsimp only
          split
          case h_1 => exact .same _
          case h_2 variant _ => exact (hfields variant.fields mark.2).bind fun _ => .same _
      | list element length? =>
          apply (CutShort.same (listLength length? input)).bind
          intro length
          dsimp only
          split
          case isTrue => exact .same _
          case isFalse =>
            apply (cutShort_decodeRepeated (hread element) length.1 length.2).bind
            intro values
            exact .same _

end ChainClient.Codec

import ChainClient.Proofs.Codec.RoundTrip
import ChainClient.Proofs.Metadata.Unfolding

/-! What the codec reads under the descriptors is what the listed types say. -/

namespace ChainClient

open Codec

variable {types : PortableTypes} {registry : TypeRegistry} {budget : Nat} {id : TypeId}

/-! Wrappers. -/

/-- A wrapper and what it wraps stand in the same bytes. -/
theorem reads_wrapper_iff {type : PortableType} {inner : TypeId}
    (htype : types[id]? = some type) (hwrapped : type.definition.wrapped? = some inner)
    (input rest : Bytes) : types.Reads id input rest ↔ types.Reads inner input rest := by
  unfold PortableDef.wrapped? at hwrapped
  split at hwrapped
  case h_2 => cases hwrapped
  case h_1 single hdefinition =>
    cases hwrapped
    rw [PortableTypes.reads_iff htype, hdefinition]
    constructor
    · rintro ⟨parts, opened, hopens, hparts⟩
      cases hopens
      exact hparts
    · intro h
      exact ⟨_, input, .composite [single] input, h⟩

theorem core_of_plain {type : PortableType} {wrappers : Nat} {descriptor : TypeDescriptor}
    (htype : types[id]? = some type) (hplain : type.definition.wrapped? = none)
    (h : convertWithin types wrappers id = .ok descriptor) :
    ∃ core ∈ types, descriptor = core.descriptor ∧
      ∀ input rest, types.Reads id input rest ↔
        types.ReadsDef core.definition input rest := by
  rw [convertWithin_plain htype hplain] at h
  exact ⟨type, List.mem_of_getElem? htype, (Except.ok.inj h).symm,
    fun _ _ => PortableTypes.reads_iff htype⟩

/-- A descriptor is that of a listed type which stands in the same bytes, or it says that
there are too many wrappers. -/
theorem core_of_convertWithin {wrappers : Nat} {descriptor : TypeDescriptor}
    (h : convertWithin types wrappers id = .ok descriptor) :
    (∃ tag, descriptor = .unsupported tag) ∨
      ∃ core ∈ types, descriptor = core.descriptor ∧
        ∀ input rest, types.Reads id input rest ↔
          types.ReadsDef core.definition input rest := by
  induction wrappers generalizing id with
  | zero =>
      obtain ⟨type, htype⟩ := listed_of_convertWithin h
      cases hwrapped : type.definition.wrapped? with
      | some inner =>
          rw [convertWithin_wrapper_zero htype hwrapped] at h
          exact .inl ⟨_, (Except.ok.inj h).symm⟩
      | none => exact .inr (core_of_plain htype hwrapped h)
  | succ wrappers ih =>
      obtain ⟨type, htype⟩ := listed_of_convertWithin h
      cases hwrapped : type.definition.wrapped? with
      | some inner =>
          rw [convertWithin_wrapper htype hwrapped] at h
          rcases ih h with hunsupported | ⟨core, hmem, hdescriptor, hreads⟩
          · exact .inl hunsupported
          · refine .inr ⟨core, hmem, hdescriptor, fun input rest => ?_⟩
            rw [reads_wrapper_iff htype hwrapped, hreads]
      | none => exact .inr (core_of_plain htype hwrapped h)

theorem definition_of_descriptor_primitive {type : PortableType} {width : Primitive}
    (h : type.descriptor = .primitive width) :
    type.definition = .primitive (.integer width) := by
  unfold PortableType.descriptor at h
  cases hdefinition : type.definition with
  | primitive kind =>
      rw [hdefinition] at h
      cases kind <;> cases h
      rfl
  | variant variants =>
      rw [hdefinition] at h
      change variantDescriptor type.path variants = _ at h
      rcases variantDescriptor_cases type.path variants with
        ⟨ok, err, -, hdescriptor⟩ | ⟨inner, -, hdescriptor⟩ | ⟨-, hdescriptor⟩
      all_goals
        rw [hdescriptor] at h
        cases h
  | composite fields =>
      rw [hdefinition] at h
      simp only [compositeDescriptor] at h
      split at h <;> cases h
  | _ =>
      rw [hdefinition] at h
      cases h

/-- What the registry takes for a byte stands in one byte. -/
theorem reads_byte_iff (hregistry : convertTypes types = .ok registry)
    (hbyte : registry.isByte id = true) (input rest : Bytes) :
    types.Reads id input rest ↔ ∃ byte, input = byte :: rest := by
  have hid : registry.get? id = some (.primitive .u8) := by
    simpa [TypeRegistry.isByte] using hbyte
  rcases core_of_convertWithin (convertWithin_of_get? hregistry hid) with
    ⟨tag, hunsupported⟩ | ⟨core, -, hdescriptor, hreads⟩
  · cases hunsupported
  · rw [hreads, definition_of_descriptor_primitive hdescriptor.symm]
    constructor
    · rintro ⟨parts, opened, hopens, hparts⟩
      cases hopens with
      | integer hwidth =>
          rename_i raw
          have hlength : raw.length = 1 := by
            have hbits : Primitive.u8.bits = 8 := rfl
            omega
          obtain ⟨byte, rfl⟩ := List.length_eq_one_iff.mp hlength
          rw [PortableTypes.readsEach_nil_iff.mp hparts]
          exact ⟨byte, rfl⟩
    · rintro ⟨byte, rfl⟩
      exact ⟨[], rest, @PortableDef.Opens.integer .u8 [byte] rfl rest, .nil rest⟩

/-! All types. -/

theorem follows_core {core : PortableType}
    (hmarks : HasMarks core.definition.variants →
      core.definition.variants.map (·.index) = [0, 1])
    (hbytes : ∀ element, registry.isByte element = true → ∀ input rest,
      types.Reads element input rest ↔ ∃ byte, input = byte :: rest)
    (hid : registry.get? id = some core.descriptor)
    (ih : ∀ part, Follows (remainder (decodeWithin registry budget part))
      (types.Reads part)) :
    Follows (remainder (decodeWithin registry (budget + 1) id))
      (types.ReadsDef core.definition) := by
  unfold PortableType.descriptor at hid
  cases hdefinition : core.definition with
  | primitive kind =>
      rw [hdefinition] at hid
      cases kind with
      | bool => exact (unfolds_bool (remainder_each_nil _) hid).follows ih
      | string => exact (unfolds_string (remainder_each_nil _) hid).follows ih
      | char => exact follows_unsupported hid _
      | integer width => exact follows_integer hid
  | compact inner =>
      rw [hdefinition] at hid
      exact (unfolds_compact (remainder_each_nil _) hid).follows ih
  | sequence element =>
      rw [hdefinition] at hid
      cases hbyte : registry.isByte element with
      | true =>
          exact follows_bytes (opensList_sequence element) hid hbyte (hbytes element hbyte)
      | false => exact (unfolds_list (opensList_sequence element) hid hbyte).follows ih
  | array length element =>
      rw [hdefinition] at hid
      cases hbyte : registry.isByte element with
      | true =>
          exact follows_bytes (opensList_array length element) hid hbyte
            (hbytes element hbyte)
      | false => exact (unfolds_list (opensList_array length element) hid hbyte).follows ih
  | tuple parts =>
      rw [hdefinition] at hid
      exact (unfolds_tuple hid).follows ih
  | composite fields =>
      rw [hdefinition] at hid
      exact (unfolds_composite hid).follows ih
  | variant variants =>
      rw [hdefinition] at hid hmarks
      exact (unfolds_variant hmarks hid).follows ih
  | bitSequence =>
      rw [hdefinition] at hid
      exact follows_unsupported hid _

theorem follows_within (hpositions : types.DeclarePositions) (hmarks : types.MarksInOrder)
    (hregistry : convertTypes types = .ok registry) (budget : Nat) (id : TypeId) :
    Follows (remainder (decodeWithin registry budget id)) (types.Reads id) := by
  -- Types may be cyclic, so the induction is on the depth that is left to the codec.
  induction budget generalizing id with
  | zero =>
      constructor
      case sound =>
        intro input rest hafter
        obtain ⟨value, hread⟩ := remainder_eq_ok.mp hafter
        rw [decodeWithin_zero] at hread
        cases hread
      case complete =>
        intro input rest _
        exact .inr ⟨_, remainder_of_error (decodeWithin_zero registry id input), trivial⟩
  | succ budget ih =>
      cases htype : types[id]? with
      | none =>
          constructor
          case sound =>
            intro input rest hafter
            obtain ⟨value, hread⟩ := remainder_eq_ok.mp hafter
            obtain ⟨descriptor, hid⟩ := decodeWithin_resolves hread
            obtain ⟨type, hlisted⟩ :=
              listed_of_convertWithin (convertWithin_of_get? hregistry hid)
            rw [htype] at hlisted
            cases hlisted
          case complete =>
            intro input rest hreads
            obtain ⟨type, hlisted⟩ := PortableTypes.Reads.listed hreads
            rw [htype] at hlisted
            cases hlisted
      | some type =>
          obtain ⟨descriptor, hid⟩ := get?_of_listed hregistry hpositions htype
          rcases core_of_convertWithin (convertWithin_of_get? hregistry hid) with
            ⟨tag, rfl⟩ | ⟨core, hmem, rfl, hreads⟩
          · exact follows_unsupported hid _
          · have hcore := follows_core (hmarks core hmem)
              (fun element hbyte => reads_byte_iff hregistry hbyte) hid ih
            constructor
            case sound =>
              intro input rest hafter
              exact (hreads input rest).mpr (hcore.sound hafter)
            case complete =>
              intro input rest h
              exact hcore.complete ((hreads input rest).mp h)

/-- Under the converted registry the codec takes as many bytes off an input as the listed
types say.  Where they have a reading, the codec has the same one or gives up. -/
theorem decode_takes_as_listed (hpositions : types.DeclarePositions)
    (hmarks : types.MarksInOrder) (hregistry : convertTypes types = .ok registry)
    (id : TypeId) (input : Bytes) (count : Nat) :
    (∀ value, decode registry id input = .ok (value, count) → types.Takes id input count) ∧
      (types.Takes id input count →
        (∃ value, decode registry id input = .ok (value, count)) ∨
          ∃ error, decode registry id input = .error error ∧ error.IsLimit) := by
  have hfollows := follows_within hpositions hmarks hregistry maxDepth id
  constructor
  · intro value h
    obtain ⟨rest, hread, rfl⟩ := decode_eq_ok.mp h
    exact PortableTypes.takes_of_reads (hfollows.sound (remainder_eq_ok.mpr ⟨value, hread⟩))
  · rintro ⟨hcount, hreads⟩
    rcases hfollows.complete hreads with hok | ⟨error, herror, hlimit⟩
    · obtain ⟨value, hread⟩ := remainder_eq_ok.mp hok
      refine .inl ⟨value, decode_eq_ok.mpr ⟨_, hread, ?_⟩⟩
      rw [List.length_drop]
      omega
    · refine .inr ⟨error, ?_, hlimit⟩
      rw [decode, decodePrefix, read_of_remainder_error herror]
      rfl

/-- Chains of labels, inside a wrapper of bytes and an option
that lead back to the chain. -/
def chainTypes : PortableTypes :=
  [⟨0, [], .primitive (.integer .u8)⟩,
    ⟨1, ["Byte"], .composite [⟨none, 0⟩]⟩,
    ⟨2, [], .sequence 1⟩,
    ⟨3, ["Option"], .variant [⟨"None", [], 0, []⟩, ⟨"Some", [⟨none, 4⟩], 1, []⟩]⟩,
    ⟨4, ["Link"], .composite [⟨some "label", 2⟩, ⟨some "next", 3⟩]⟩,
    ⟨5, ["Chain"], .variant [⟨"Head", [⟨none, 4⟩], 7, []⟩, ⟨"Empty", [], 3, []⟩]⟩]

def chainRegistry : TypeRegistry :=
  ⟨[(0, .primitive .u8), (1, .primitive .u8), (2, .list 1 none), (3, .option 4),
    (4, .struct [⟨some "label", 2⟩, ⟨some "next", 3⟩]),
    (5, .enum "Chain" [⟨7, "Head", [⟨none, 4⟩]⟩, ⟨3, "Empty", []⟩])]⟩

theorem decode_takes_as_listed_chain :
    chainTypes.DeclarePositions ∧ chainTypes.MarksInOrder ∧
      convertTypes chainTypes = .ok chainRegistry ∧
      chainTypes.Takes 5 [7, 8, 1, 2, 1, 0, 0, 255] 7 := by
  have hpositions : chainTypes.DeclarePositions := by decide
  have hmarks : chainTypes.MarksInOrder := by decide
  have hregistry : convertTypes chainTypes = .ok chainRegistry :=
    ok_of_toOption (by decide +kernel)
  have hlisted :=
    decode_takes_as_listed hpositions hmarks hregistry 5 [7, 8, 1, 2, 1, 0, 0, 255] 7
  exact ⟨hpositions, hmarks, hregistry, hlisted.1 _ rfl⟩

end ChainClient

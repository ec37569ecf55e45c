import ChainClient.Proofs.Metadata.Discriminants
import ChainClient.Proofs.Metadata.Wire

/-! Reading by each descriptor, against the definition that it was made of. -/

namespace ChainClient

open Codec

/-! Agreement of what is left with a way of reading. -/

/-- Whatever is read off is a reading, and a reading is read
off unless the codec gives up. -/
structure Follows (after : Bytes → Except CodecError Bytes) (reads : Bytes → Bytes → Prop) :
    Prop where
  sound : ∀ {input rest}, after input = .ok rest → reads input rest
  complete : ∀ {input rest}, reads input rest →
    after input = .ok rest ∨ ∃ error, after input = .error error ∧ error.IsLimit

/-- What is read off is what a definition puts first and then
the parts, one after another. -/
structure Unfolds (after : Bytes → Except CodecError Bytes)
    (each : List TypeId → Bytes → Except CodecError Bytes) (definition : PortableDef) :
    Prop where
  sound : ∀ {input rest}, after input = .ok rest →
    ∃ parts opened, definition.Opens input parts opened ∧ each parts opened = .ok rest
  complete : ∀ {input parts opened}, definition.Opens input parts opened →
    after input = each parts opened

variable {types : PortableTypes} {registry : TypeRegistry} {budget : Nat} {id : TypeId}

theorem follows_each (h : ∀ id, Follows (remainder (decodeWithin registry budget id))
    (types.Reads id)) (ids : List TypeId) :
    Follows (remainder (decodeEach (decodeWithin registry budget) ids))
      (types.ReadsEach ids) := by
  induction ids with
  | nil =>
      constructor
      case sound =>
        intro input rest hafter
        exact PortableTypes.readsEach_nil_iff.mpr (Except.ok.inj hafter)
      case complete =>
        intro input rest hreads
        rw [PortableTypes.readsEach_nil_iff.mp hreads]
        exact .inl rfl
  | cons id ids ih =>
      constructor
      case sound =>
        intro input rest hafter
        rw [remainder_each_cons] at hafter
        obtain ⟨middle, hfirst, hothers⟩ := bind_eq_ok.mp hafter
        exact PortableTypes.readsEach_cons_iff.mpr
          ⟨middle, (h id).sound hfirst, ih.sound hothers⟩
      case complete =>
        intro input rest hreads
        obtain ⟨middle, hfirst, hothers⟩ := PortableTypes.readsEach_cons_iff.mp hreads
        rw [remainder_each_cons]
        rcases (h id).complete hfirst with hok | ⟨error, herror, hlimit⟩
        · rw [hok]
          exact ih.complete hothers
        · rw [herror]
          exact .inr ⟨error, rfl, hlimit⟩

theorem Unfolds.follows {after : Bytes → Except CodecError Bytes} {definition : PortableDef}
    (h : Unfolds after (fun parts =>
      remainder (decodeEach (decodeWithin registry budget) parts))
      definition)
    (ih : ∀ id, Follows (remainder (decodeWithin registry budget id)) (types.Reads id)) :
    Follows after (types.ReadsDef definition) where
  sound hafter := by
    obtain ⟨parts, opened, hopens, hparts⟩ := h.sound hafter
    exact ⟨parts, opened, hopens, (follows_each ih parts).sound hparts⟩
  complete hreads := by
    obtain ⟨parts, opened, hopens, hparts⟩ := hreads
    rw [h.complete hopens]
    exact (follows_each ih parts).complete hparts

/-- A type that the codec does not carry. -/
theorem follows_unsupported {tag : String}
    (hid : registry.get? id = some (.unsupported tag)) (reads : Bytes → Bytes → Prop) :
    Follows (remainder (decodeWithin registry (budget + 1) id)) reads where
  sound hafter := by
    obtain ⟨value, hread⟩ := remainder_eq_ok.mp hafter
    rw [decodeWithin_unsupported hid] at hread
    cases hread
  complete _ :=
    .inr ⟨_, remainder_of_error (decodeWithin_unsupported hid _), trivial⟩

/-! Scalars. -/

variable {each : List TypeId → Bytes → Except CodecError Bytes}

theorem unfolds_bool (heach : ∀ opened, each [] opened = .ok opened)
    (hid : registry.get? id = some .boolean) :
    Unfolds (remainder (decodeWithin registry (budget + 1) id)) each
      (.primitive .bool) := by
  rw [decodeWithin_boolean hid]
  constructor
  case sound =>
    intro input rest hafter
    obtain ⟨value, hread⟩ := remainder_eq_ok.mp hafter
    obtain ⟨b, rfl, -⟩ := decodeBool_eq_ok.mp hread
    exact ⟨[], rest, .bool b rest, heach rest⟩
  case complete =>
    intro input parts opened hopens
    cases hopens with
    | bool b rest =>
        exact (remainder_eq_ok.mpr ⟨_, bool_reads b opened⟩).trans (heach _).symm

theorem unfolds_string (heach : ∀ opened, each [] opened = .ok opened)
    (hid : registry.get? id = some .string) :
    Unfolds (remainder (decodeWithin registry (budget + 1) id)) each
      (.primitive .string) := by
  rw [decodeWithin_string hid]
  constructor
  case sound =>
    intro input rest hafter
    obtain ⟨value, hread⟩ := remainder_eq_ok.mp hafter
    obtain ⟨text, hlength, -⟩ := decodeString_eq_ok.mp hread
    exact ⟨[], rest, .string (decodeCompact_iff.mp hlength), heach rest⟩
  case complete =>
    intro input parts opened hopens
    cases hopens with
    | string hlength =>
        have hread := decodeString_eq_ok.mpr ⟨_, decodeCompact_iff.mpr hlength, rfl⟩
        exact (remainder_eq_ok.mpr ⟨_, hread⟩).trans (heach _).symm

theorem unfolds_compact {inner : TypeId} (heach : ∀ opened, each [] opened = .ok opened)
    (hid : registry.get? id = some (.compact inner)) :
    Unfolds (remainder (decodeWithin registry (budget + 1) id)) each (.compact inner) := by
  rw [decodeWithin_compact hid]
  constructor
  case sound =>
    intro input rest hafter
    obtain ⟨value, hread⟩ := remainder_eq_ok.mp hafter
    obtain ⟨n, hn, -⟩ := decodeCompactValue_eq_ok.mp hread
    exact ⟨[], rest, .compact inner (decodeCompact_iff.mp hn), heach rest⟩
  case complete =>
    intro input parts opened hopens
    cases hopens with
    | compact _ hn =>
        have hread := decodeCompactValue_eq_ok.mpr ⟨_, decodeCompact_iff.mpr hn, rfl⟩
        exact (remainder_eq_ok.mpr ⟨_, hread⟩).trans (heach _).symm

theorem byteLength?_of_bits {width : Primitive} {length : Nat}
    (hwidth : width.bits = 8 * length) (h : width.byteLength?.isSome) :
    width.byteLength? = some length := by
  obtain ⟨other, hother⟩ := Option.isSome_iff_exists.mp h
  obtain ⟨-, hbits⟩ := byteLength?_eq_some hother
  rw [hother, Option.some.injEq]
  omega

/-- Integers of a width that the codec does not carry stand in their bytes all the same. -/
theorem follows_integer {width : Primitive}
    (hid : registry.get? id = some (.primitive width)) :
    Follows (remainder (decodeWithin registry (budget + 1) id))
      (types.ReadsDef (.primitive (.integer width))) := by
  rw [decodeWithin_primitive hid]
  constructor
  case sound =>
    intro input rest hafter
    obtain ⟨value, hread⟩ := remainder_eq_ok.mp hafter
    obtain ⟨raw, hlength, rfl, -⟩ := decodePrimitive_eq_ok.mp hread
    exact ⟨[], rest, .integer (byteLength?_eq_some hlength).2 rest, .nil rest⟩
  case complete =>
    intro input rest hreads
    obtain ⟨parts, opened, hopens, hparts⟩ := hreads
    cases hopens with
    | integer hwidth =>
        rename_i raw
        rw [← PortableTypes.readsEach_nil_iff.mp hparts]
        cases hcarried : width.byteLength? with
        | some length =>
            have hlength := byteLength?_of_bits hwidth (by rw [hcarried]; rfl)
            exact .inl (remainder_eq_ok.mpr ⟨_, primitive_reads hlength opened⟩)
        | none =>
            refine .inr ⟨.unsupportedType id width.name, remainder_of_error ?_, trivial⟩
            rw [decodePrimitive, hcarried]

/-! Tuples, structs and variants. -/

theorem unfolds_tuple {parts : List TypeId} (hid : registry.get? id = some (.tuple parts)) :
    Unfolds (remainder (decodeWithin registry (budget + 1) id))
      (fun parts => remainder (decodeEach (decodeWithin registry budget) parts))
      (.tuple parts) where
  sound hafter := ⟨parts, _, .tuple parts _, (remainder_tuple hid _).symm.trans hafter⟩
  complete hopens := by
    cases hopens with
    | tuple => exact remainder_tuple hid _

theorem unfolds_composite {fields : List PortableField}
    (hid : registry.get? id = some (compositeDescriptor fields)) :
    Unfolds (remainder (decodeWithin registry (budget + 1) id))
      (fun parts => remainder (decodeEach (decodeWithin registry budget) parts))
      (.composite fields) := by
  have hafter : ∀ input, remainder (decodeWithin registry (budget + 1) id) input =
      remainder (decodeEach (decodeWithin registry budget) (fields.map (·.type)))
        input := by
    intro input
    unfold compositeDescriptor at hid
    split at hid
    case isTrue => rw [remainder_struct hid, map_convert_type]
    case isFalse => exact remainder_tuple hid input
  constructor
  case sound =>
    intro input rest hrest
    exact ⟨_, input, .composite fields input, (hafter input).symm.trans hrest⟩
  case complete =>
    intro input parts opened hopens
    cases hopens with
    | composite => exact hafter input

theorem unfolds_variant {path : List String} {variants : List PortableVariant}
    (hmarks : HasMarks variants → variants.map (·.index) = [0, 1])
    (hid : registry.get? id = some (variantDescriptor path variants)) :
    Unfolds (remainder (decodeWithin registry (budget + 1) id))
      (fun parts => remainder (decodeEach (decodeWithin registry budget) parts))
      (.variant variants) := by
  have hafter : ∀ {index : UInt8} {selected : PortableVariant},
    variants.find? (·.index = index) = some selected → ∀ others,
        remainder (decodeWithin registry (budget + 1) id) (index :: others) =
          remainder
            (decodeEach (decodeWithin registry budget) (selected.fields.map (·.type)))
            others := by
    intro index selected hselected others
    rw [remainder, decodeWithin_variant_eq hmarks hid, decodeVariants_declared hselected,
      remainder]
    cases decodeEach (decodeWithin registry budget) (selected.fields.map (·.type))
      others <;> rfl
  constructor
  case sound =>
    intro input rest hrest
    obtain ⟨value, hread⟩ := remainder_eq_ok.mp hrest
    rw [decodeWithin_variant_eq hmarks hid] at hread
    cases input with
    | nil => cases hread
    | cons index others =>
        cases hselected : variants.find? (·.index = index) with
        | none =>
            rw [decodeVariants_undeclared hselected] at hread
            cases hread
        | some selected =>
            exact ⟨_, others, .variant hselected others,
              (hafter hselected others).symm.trans hrest⟩
  case complete =>
    intro input parts opened hopens
    cases hopens with
    | variant hselected => exact hafter hselected opened

/-! Lists. -/

/-- A definition of lists, by the length that it fixes. -/
def OpensList (definition : PortableDef) (element : TypeId) (length? : Option Nat) : Prop :=
  ∀ input parts opened, definition.Opens input parts opened ↔
    ∃ length, listLength length? input = .ok (length, opened) ∧
      parts = List.replicate length element

theorem opensList_sequence (element : TypeId) :
    OpensList (.sequence element) element none := by
  intro input parts opened
  constructor
  · intro h
    cases h with
    | sequence _ hlength => exact ⟨_, decodeCompact_iff.mpr hlength, rfl⟩
  · rintro ⟨length, hlength, rfl⟩
    exact .sequence element (decodeCompact_iff.mp hlength)

theorem opensList_array (length : Nat) (element : TypeId) :
    OpensList (.array length element) element (some length) := by
  intro input parts opened
  constructor
  · intro h
    cases h with
    | array => exact ⟨length, rfl, rfl⟩
  · rintro ⟨other, hother, rfl⟩
    cases hother
    exact .array length element input

theorem unfolds_list {definition : PortableDef} {element : TypeId} {length? : Option Nat}
    (hopens : OpensList definition element length?)
    (hid : registry.get? id = some (.list element length?))
    (hbyte : registry.isByte element = false) :
    Unfolds (remainder (decodeWithin registry (budget + 1) id))
      (fun parts => remainder (decodeEach (decodeWithin registry budget) parts))
        definition where
  sound hafter := by
    obtain ⟨value, hread⟩ := remainder_eq_ok.mp hafter
    obtain ⟨length, middle, values, hlength, -, -⟩ :=
      (decodeWithin_list_eq_ok hid hbyte).mp hread
    exact ⟨_, middle, (hopens _ _ _).mpr ⟨length, hlength, rfl⟩,
      (remainder_list hid hbyte hlength).symm.trans hafter⟩
  complete h := by
    obtain ⟨length, hlength, rfl⟩ := (hopens _ _ _).mp h
    exact remainder_list hid hbyte hlength

theorem readsEach_bytes_iff {element : TypeId}
    (helement : ∀ input rest, types.Reads element input rest ↔ ∃ byte, input = byte :: rest)
    (length : Nat) (input rest : Bytes) :
    types.ReadsEach (List.replicate length element) input rest ↔
      ∃ raw, input = raw ++ rest ∧ raw.length = length := by
  induction length generalizing input with
  | zero =>
      rw [List.replicate_zero, PortableTypes.readsEach_nil_iff]
      constructor
      · rintro rfl
        exact ⟨[], rfl, rfl⟩
      · rintro ⟨raw, rfl, hraw⟩
        rw [List.eq_nil_of_length_eq_zero hraw]
        rfl
  | succ length ih =>
      rw [List.replicate_succ, PortableTypes.readsEach_cons_iff]
      constructor
      · rintro ⟨middle, hfirst, hothers⟩
        obtain ⟨byte, rfl⟩ := (helement input middle).mp hfirst
        obtain ⟨raw, rfl, rfl⟩ := (ih middle).mp hothers
        exact ⟨byte :: raw, rfl, rfl⟩
      · rintro ⟨raw, rfl, hraw⟩
        match raw with
        | byte :: raw =>
            exact ⟨raw ++ rest, (helement _ _).mpr ⟨byte, rfl⟩,
              (ih _).mpr ⟨raw, rfl, by simpa using hraw⟩⟩

/-- Bytes are taken all at once, and not each at a level below. -/
theorem follows_bytes {definition : PortableDef} {element : TypeId} {length? : Option Nat}
    (hopens : OpensList definition element length?)
    (hid : registry.get? id = some (.list element length?))
    (hbyte : registry.isByte element = true)
    (helement : ∀ input rest, types.Reads element input rest ↔
      ∃ byte, input = byte :: rest) :
    Follows (remainder (decodeWithin registry (budget + 1) id))
      (types.ReadsDef definition) := by
  constructor
  case sound =>
    intro input rest hafter
    obtain ⟨value, hread⟩ := remainder_eq_ok.mp hafter
    obtain ⟨length, middle, raw, hlength, htake, -⟩ :=
      (decodeWithin_bytes_eq_ok hid hbyte).mp hread
    obtain ⟨hmiddle, hraw⟩ := take_eq_ok.mp htake
    exact ⟨_, middle, (hopens _ _ _).mpr ⟨length, hlength, rfl⟩,
      (readsEach_bytes_iff helement length middle rest).mpr ⟨raw, hmiddle, hraw⟩⟩
  case complete =>
    intro input rest hreads
    obtain ⟨parts, opened, hopened, hparts⟩ := hreads
    obtain ⟨length, hlength, rfl⟩ := (hopens _ _ _).mp hopened
    obtain ⟨raw, hraw⟩ := (readsEach_bytes_iff helement length opened rest).mp hparts
    exact .inl (remainder_eq_ok.mpr ⟨_, (decodeWithin_bytes_eq_ok hid hbyte).mpr
      ⟨length, opened, raw, hlength, take_eq_ok.mpr hraw, rfl⟩⟩)

end ChainClient

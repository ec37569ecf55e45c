import ChainClient.Extrinsic.Basic
import ChainClient.Metadata.Convert
import ChainClient.Proofs.Codec.Depth
import ChainClient.Proofs.Codec.Parts
import ChainClient.Proofs.Metadata.Conversion

/-! A call that is put together from its pallet, against the same call as a value of the
enum that the runtime declares for the calls of that pallet. -/

namespace ChainClient

open Codec

variable {registry : TypeRegistry}

/-! The bytes of a call. -/

/-- The arguments are written as the fields of the call. -/
theorem encodeArguments_eq_ok {fields : List Field} {params : List Value}
    {written : Bytes} :
    encodeArguments registry (params.zip fields) = .ok written ↔
      encodeFields (encodeWithin registry maxDepth) fields params = .ok written := by
  unfold encodeFields encodeZip
  induction params.zip fields generalizing written with
  | nil =>
      rw [encodeArguments, encodeEach]
      simp only [Except.ok.injEq]
  | cons argument arguments ih =>
      rw [encodeEach_cons_eq_ok]
      simp only [encodeArguments, encodeArgument, encode, bind_eq_ok,
        mapError_eq_ok, ih, pure, Except.pure, Except.ok.injEq]
      grind

theorem encodeCall_eq_ok {palletIndex : UInt8} {call : Call} {params : List Value}
    (hlength : params.length = call.fields.length) {full : Bytes} :
    encodeCall registry palletIndex call params = .ok full ↔
      ∃ written,
        encodeFields (encodeWithin registry maxDepth) call.fields params = .ok written ∧
          full = palletIndex :: call.index :: written := by
  rw [encodeCall, if_neg (by omega)]
  simp only [bind_eq_ok, encodeArguments_eq_ok, pure, Except.pure, Except.ok.injEq]
  constructor
  · rintro ⟨written, hwritten, rfl⟩
    exact ⟨written, hwritten, rfl⟩
  · rintro ⟨written, hwritten, rfl⟩
    exact ⟨written, hwritten, rfl⟩

theorem encodeFields_cutShort {less more : Nat} (hle : less ≤ more) (fields : List Field)
    (params : List Value) :
    CutShort (encodeFields (encodeWithin registry less) fields params)
      (encodeFields (encodeWithin registry more) fields params) :=
  cutShort_each (fun _ => encodeWithin_cutShort registry hle _ _) (params.zip fields)

theorem encodeWithin_enum_variant {budget : Nat} {id : TypeId} {name given : String}
    {variants : List Variant} {variant : Variant} {params : List Value}
    (hid : registry.get? id = some (.enum name variants))
    (hindices : (variants.map Variant.index).Nodup) (hmem : variant ∈ variants)
    (hlength : params.length = variant.fields.length) :
    encodeWithin registry (budget + 1) (.variant given variant.index params) id =
      (variant.index :: ·) <$>
        encodeFields (encodeWithin registry budget) variant.fields params := by
  simp only [encodeWithin, resolve, hid, ok_bind, selectVariant,
    find?_of_nodup hindices hmem, if_pos hlength]
  rfl

/-- The fields of the value are one level further down than the arguments of the call. -/
theorem encodeCall_of_enum {id : TypeId} {name : String} {variants : List Variant}
    {variant : Variant} {call : Call} {params : List Value}
    (hid : registry.get? id = some (.enum name variants))
    (hindices : (variants.map Variant.index).Nodup) (hmem : variant ∈ variants)
    (hindex : call.index = variant.index) (hfields : call.fields = variant.fields)
    (hlength : params.length = call.fields.length) (palletIndex : UInt8) (given : String) :
    (∀ written, encode registry id (.variant given call.index params) = .ok written →
      encodeCall registry palletIndex call params = .ok (palletIndex :: written)) ∧
    (∀ full, encodeCall registry palletIndex call params = .ok full →
      (∃ written, full = palletIndex :: written ∧
        encode registry id (.variant given call.index params) = .ok written) ∨
      encode registry id (.variant given call.index params) =
        .error (.recursionLimit maxDepth)) := by
  obtain ⟨budget, hbudget⟩ : ∃ budget, maxDepth = budget + 1 := ⟨255, rfl⟩
  have hencode : encode registry id (.variant given call.index params) =
      (call.index :: ·) <$> encodeFields (encodeWithin registry budget)
        call.fields params := by
    rw [encode, hbudget, hindex, hfields]
    exact encodeWithin_enum_variant hid hindices hmem (hfields ▸ hlength)
  have hdepth :=
    @encodeFields_cutShort registry budget maxDepth (by omega) call.fields params
  rw [hencode]
  constructor
  · intro written hwritten
    obtain ⟨fields, hless, rfl⟩ := map_eq_ok.mp hwritten
    exact (encodeCall_eq_ok hlength).mpr ⟨fields, hdepth.ok_of_ok hless, rfl⟩
  · intro full hfull
    obtain ⟨fields, hmore, rfl⟩ := (encodeCall_eq_ok hlength).mp hfull
    rcases hdepth.of_ok hmore with hless | hless
    · exact .inl ⟨call.index :: fields, rfl, map_eq_ok.mpr ⟨fields, hless, rfl⟩⟩
    · rw [hless]
      exact .inr rfl

/-! The declared calls. -/

theorem parseMetadata_eq_ok {blob : Bytes} {metadata : Metadata} :
    parseMetadata blob = .ok metadata ↔
      ∃ runtime rest,
        Scale.Reader.prefixed blob = some ((metadataMagic, .supported runtime), rest) ∧
          runtime.convert = .ok metadata := by
  unfold parseMetadata
  cases hread : Scale.Reader.prefixed blob with
  | none => simp
  | some outcome =>
      obtain ⟨⟨magic, versioned⟩, rest⟩ := outcome
      cases versioned with
      | supported runtime =>
          by_cases hmagic : magic = metadataMagic
          · simp [hmagic]
          · simp [hmagic]
      | unsupported version =>
          by_cases hmagic : magic = metadataMagic
          · simp [hmagic]
          · simp [hmagic]

theorem convert_eq_ok {runtime : RuntimeBlob} {metadata : Metadata}
    (h : runtime.convert = .ok metadata) :
    convertTypes runtime.types = .ok metadata.registry ∧
      runtime.pallets.mapM (PalletBlob.convert runtime.types) = .ok metadata.pallets := by
  obtain ⟨registry, hregistry, h⟩ := bind_eq_ok.mp h
  obtain ⟨pallets, hpallets, h⟩ := bind_eq_ok.mp h
  cases h
  exact ⟨hregistry, hpallets⟩

theorem calls_of_convert {types : PortableTypes} {declared : PalletBlob} {pallet : Pallet}
    (h : declared.convert types = .ok pallet) {id : TypeId}
    (hcalls : declared.calls? = some id) {type : PortableType}
    (htype : types[id]? = some type) {variants : List PortableVariant}
    (hdefinition : type.definition = .variant variants) :
    pallet.calls = variants.map PortableVariant.toCall := by
  obtain ⟨calls, hvariants, h⟩ := bind_eq_ok.mp h
  obtain ⟨events, -, h⟩ := bind_eq_ok.mp h
  obtain ⟨errors, -, h⟩ := bind_eq_ok.mp h
  cases h
  simp only [hcalls, variantsOf?, variantsOf, PortableTypes.resolve, htype, ok_bind,
    hdefinition, Except.ok.injEq] at hvariants
  rw [hvariants]

/-- A variant type that is neither an option nor a result is an enum to the codec. -/
theorem get?_enum {types : PortableTypes} (hregistry : convertTypes types = .ok registry)
    (hpositions : types.DeclarePositions) {id : TypeId} {type : PortableType}
    (htype : types[id]? = some type) {variants : List PortableVariant}
    (hdefinition : type.definition = .variant variants) (hmarks : ¬ HasMarks variants) :
    registry.get? id =
      some (.enum (enumName type.path) (variants.map PortableVariant.convert)) := by
  obtain ⟨descriptor, hid⟩ := get?_of_listed hregistry hpositions htype
  have hplain : type.definition.wrapped? = none := by
    rw [hdefinition]
    rfl
  have hconverted := convertWithin_of_get? hregistry hid
  rw [convertWithin_plain htype hplain, PortableType.descriptor, hdefinition] at hconverted
  rw [hid, ← Except.ok.inj hconverted]
  rcases variantDescriptor_cases type.path variants with
    ⟨ok, err, hshape, -⟩ | ⟨inner, hshape, -⟩ | ⟨-, hdescriptor⟩
  · exact absurd (.inr ⟨ok, err, hshape⟩) hmarks
  · exact absurd (.inl ⟨inner, hshape⟩) hmarks
  · exact congrArg some hdescriptor

/-- A call and the value of its enum are written as the same bytes, after the index of the
pallet.  The value has one level more, and may be too deep where the call is not. -/
theorem encodeCall_agrees_with_enum {blob rest : Bytes} {magic : Nat}
    {runtime : RuntimeBlob} {metadata : Metadata}
    (hread : Scale.Reader.prefixed blob = some ((magic, .supported runtime), rest))
    (hparsed : parseMetadata blob = .ok metadata)
    (hpositions : runtime.types.DeclarePositions) {position : Nat} {declared : PalletBlob}
    {pallet : Pallet} (hdeclared : runtime.pallets[position]? = some declared)
    (hpallet : metadata.pallets[position]? = some pallet) {id : TypeId}
    {type : PortableType} {variants : List PortableVariant}
    (hcalls : declared.calls? = some id) (htype : runtime.types[id]? = some type)
    (hdefinition : type.definition = .variant variants)
    (hindices : (variants.map (·.index)).Nodup) (hmarks : ¬ HasMarks variants) {call : Call}
    (hcall : call ∈ pallet.calls) {params : List Value}
    (hlength : params.length = call.fields.length) (name : String) :
    (∀ written,
      encode metadata.registry id (.variant name call.index params) = .ok written →
      encodeCall metadata.registry pallet.index call params =
        .ok (pallet.index :: written)) ∧
    (∀ full, encodeCall metadata.registry pallet.index call params = .ok full →
      (∃ written, full = pallet.index :: written ∧
        encode metadata.registry id (.variant name call.index params) = .ok written) ∨
      encode metadata.registry id (.variant name call.index params) =
        .error (.recursionLimit maxDepth)) := by
  obtain ⟨other, _, hother, hconvert⟩ := parseMetadata_eq_ok.mp hparsed
  obtain rfl : other = runtime := by
    rw [hread] at hother
    cases hother
    rfl
  obtain ⟨hregistry, hpallets⟩ := convert_eq_ok hconvert
  obtain ⟨entry, hentry, hconverted⟩ := getElem?_of_mapM hpallets hpallet
  obtain rfl := Option.some.inj (hentry.symm.trans hdeclared)
  rw [calls_of_convert hconverted hcalls htype hdefinition] at hcall
  obtain ⟨variant, hvariant, rfl⟩ := List.mem_map.mp hcall
  have henum := get?_enum hregistry hpositions htype hdefinition hmarks
  have hnodup : ((variants.map PortableVariant.convert).map Variant.index).Nodup := by
    rwa [List.map_map]
  exact encodeCall_of_enum henum hnodup (List.mem_map_of_mem hvariant) rfl rfl hlength
    pallet.index name

/-- A blob of version 14 with one type beside the enum of the calls of its one pallet. -/
def bankBlob : Bytes :=
  [0x6d, 0x65, 0x74, 0x61, 14,
    -- the types: unsigned bytes, and the enum with its two variants
    8, 0, 0, 0, 5, 3, 0,
    4, 4, 16, 67, 97, 108, 108, 0, 1,
      8, 12, 112, 97, 121, 4, 0, 0, 0, 0, 7, 0, 16, 105, 100, 108, 101, 0, 3, 0, 0,
    -- the pallet
    4, 16, 66, 97, 110, 107, 0, 1, 4, 0, 0, 0, 5,
    -- no signed extensions
    0, 4, 0, 0]

def bankCalls : List PortableVariant :=
  [⟨"pay", [⟨none, 0⟩], 7, []⟩, ⟨"idle", [], 3, []⟩]

def bankRuntime : RuntimeBlob where
  types := [⟨0, [], .primitive (.integer .u8)⟩, ⟨1, ["Call"], .variant bankCalls⟩]
  pallets := [⟨5, "Bank", [], some 1, none, none, []⟩]
  extensions := []

def bankMetadata : Metadata where
  registry :=
    ⟨[(0, .primitive .u8), (1, .enum "Call" [⟨7, "pay", [⟨none, 0⟩]⟩, ⟨3, "idle", []⟩])]⟩
  pallets := [⟨5, "Bank", bankCalls.map PortableVariant.toCall, [], [], [], []⟩]
  extensions := []

def bankPay : Call := ⟨7, "pay", [⟨none, 0⟩], []⟩

theorem encodeCall_agrees_with_enum_pay :
    Scale.Reader.prefixed bankBlob = some ((metadataMagic, .supported bankRuntime), []) ∧
      parseMetadata bankBlob = .ok bankMetadata ∧
      encode bankMetadata.registry 1 (.variant "Call::pay" 7 [.unsigned 9]) = .ok [7, 9] ∧
      encodeCall bankMetadata.registry 5 bankPay [.unsigned 9] = .ok [5, 7, 9] := by
  have hread : Scale.Reader.prefixed bankBlob =
      some ((metadataMagic, .supported bankRuntime), []) := by decide +kernel
  have hparsed : parseMetadata bankBlob = .ok bankMetadata :=
    ok_of_toOption (by decide +kernel)
  have hpositions : bankRuntime.types.DeclarePositions := by decide
  have hdeclared : bankRuntime.pallets[0]? =
      some ⟨5, "Bank", [], some 1, none, none, []⟩ := rfl
  have hindices : (bankCalls.map (·.index)).Nodup := by decide
  have hmarks : ¬ HasMarks bankCalls := by decide
  have hcall : bankPay ∈ bankCalls.map PortableVariant.toCall := by decide
  have hlength : [Value.unsigned 9].length = bankPay.fields.length := rfl
  have henum : encode bankMetadata.registry 1 (.variant "Call::pay" 7 [.unsigned 9]) =
      .ok [7, 9] := rfl
  have hagrees := encodeCall_agrees_with_enum hread hparsed hpositions hdeclared rfl rfl rfl
    rfl hindices hmarks hcall hlength "Call::pay"
  exact ⟨hread, hparsed, henum, hagrees.1 _ henum⟩

end ChainClient

import ChainClient.Metadata.Portable
import ChainClient.Proofs.Codec.Scalar

/-! The bytes of a value as its type is listed, and not as its descriptor says:
first what the definition itself puts there, such as a length or the index of a
variant, and then the parts. -/

namespace ChainClient

namespace Codec

/-- The number stands before the rest in one of the three modes. -/
def CompactAt (n : Nat) (input rest : Bytes) : Prop :=
  ∃ mode : CompactMode, n < mode.bound ∧ input = mode.form n ++ rest

theorem decodeCompact_iff {n : Nat} {input rest : Bytes} :
    decodeCompact input = .ok (n, rest) ↔ CompactAt n input rest :=
  decodeCompact_eq_ok

theorem CompactAt.suffix {n : Nat} {input rest : Bytes} (h : CompactAt n input rest) :
    rest <:+ input := by
  obtain ⟨mode, -, rfl⟩ := h
  exact ⟨mode.form n, rfl⟩

end Codec

/-- What a definition itself puts before the parts of a value, and the types of the parts.
A character and a sequence of bits have no form here. -/
inductive PortableDef.Opens : PortableDef → Bytes → List TypeId → Bytes → Prop
  | bool (b : Bool) (rest : Bytes) :
      Opens (.primitive .bool) (Codec.boolByte b :: rest) [] rest
  | integer {width : Primitive} {raw : Bytes} (hwidth : width.bits = 8 * raw.length)
      (rest : Bytes) : Opens (.primitive (.integer width)) (raw ++ rest) [] rest
  | string {text : String} {input rest : Bytes}
      (hlength : Codec.CompactAt (Bytes.ofString text).length input
        (Bytes.ofString text ++ rest)) :
      Opens (.primitive .string) input [] rest
  | compact (inner : TypeId) {n : Nat} {input rest : Bytes}
      (hn : Codec.CompactAt n input rest) : Opens (.compact inner) input [] rest
  | sequence (element : TypeId) {length : Nat} {input rest : Bytes}
      (hlength : Codec.CompactAt length input rest) :
      Opens (.sequence element) input (List.replicate length element) rest
  | array (length : Nat) (element : TypeId) (input : Bytes) :
      Opens (.array length element) input (List.replicate length element) input
  | tuple (parts : List TypeId) (input : Bytes) : Opens (.tuple parts) input parts input
  | composite (fields : List PortableField) (input : Bytes) :
      Opens (.composite fields) input (fields.map (·.type)) input
  | variant {variants : List PortableVariant} {index : UInt8} {selected : PortableVariant}
      (hselected : variants.find? (·.index = index) = some selected) (rest : Bytes) :
      Opens (.variant variants) (index :: rest) (selected.fields.map (·.type)) rest

namespace PortableTypes

/-- Values of the given types stand one after another before the rest. -/
inductive ReadsEach (types : PortableTypes) : List TypeId → Bytes → Bytes → Prop
  | nil (input : Bytes) : ReadsEach types [] input input
  | cons {id : TypeId} {type : PortableType} {parts others : List TypeId}
      {input opened middle rest : Bytes} (htype : types[id]? = some type)
      (hopens : type.definition.Opens input parts opened)
      (hparts : ReadsEach types parts opened middle)
      (hothers : ReadsEach types others middle rest) :
      ReadsEach types (id :: others) input rest

/-- A value of the type stands before the rest. -/
def Reads (types : PortableTypes) (id : TypeId) (input rest : Bytes) : Prop :=
  types.ReadsEach [id] input rest

/-- A value of the type takes so many bytes off the front of the input. -/
def Takes (types : PortableTypes) (id : TypeId) (input : Bytes) (count : Nat) : Prop :=
  count ≤ input.length ∧ types.Reads id input (input.drop count)

end PortableTypes

/-! What is left over is the end of the input. -/

theorem PortableDef.Opens.suffix {definition : PortableDef} {input opened : Bytes}
    {parts : List TypeId} (h : definition.Opens input parts opened) : opened <:+ input := by
  cases h with
  | bool b => exact List.suffix_cons _ _
  | integer => exact List.suffix_append _ _
  | string hlength => exact (List.suffix_append _ _).trans hlength.suffix
  | compact _ hn => exact hn.suffix
  | sequence _ hlength => exact hlength.suffix
  | array | tuple | composite => exact List.suffix_refl _
  | variant => exact List.suffix_cons _ _

namespace PortableTypes

variable {types : PortableTypes} {id : TypeId} {ids : List TypeId} {input rest : Bytes}

theorem ReadsEach.suffix (h : types.ReadsEach ids input rest) : rest <:+ input := by
  induction h with
  | nil input => exact List.suffix_refl input
  | cons htype hopens hparts hothers ihParts ihOthers =>
      exact (ihOthers.trans ihParts).trans hopens.suffix

theorem takes_of_reads (h : types.Reads id input rest) :
    types.Takes id input (input.length - rest.length) := by
  obtain ⟨raw, rfl⟩ := ReadsEach.suffix h
  have hcount : (raw ++ rest).length - rest.length = raw.length := by simp
  rw [hcount]
  refine ⟨by simp, ?_⟩
  rwa [List.drop_left]

/-! Readings by the definition of the type that stands first. -/

theorem readsEach_nil_iff : types.ReadsEach [] input rest ↔ input = rest := by
  constructor
  · intro h
    cases h
    rfl
  · rintro rfl
    exact .nil input

theorem readsEach_cons_iff :
    types.ReadsEach (id :: ids) input rest ↔
      ∃ middle, types.Reads id input middle ∧ types.ReadsEach ids middle rest := by
  constructor
  · intro h
    cases h with
    | cons htype hopens hparts hothers =>
        exact ⟨_, .cons htype hopens hparts (.nil _), hothers⟩
  · rintro ⟨middle, hfirst, hothers⟩
    cases hfirst with
    | cons htype hopens hparts hnil =>
        cases hnil
        exact .cons htype hopens hparts hothers

/-- A value of a definition stands before the rest. -/
def ReadsDef (types : PortableTypes) (definition : PortableDef)
    (input rest : Bytes) : Prop :=
  ∃ parts opened, definition.Opens input parts opened ∧ types.ReadsEach parts opened rest

theorem reads_iff {type : PortableType} (htype : types[id]? = some type) :
    types.Reads id input rest ↔ types.ReadsDef type.definition input rest := by
  constructor
  · intro h
    cases h with
    | cons htype' hopens hparts hnil =>
        obtain rfl := Option.some.inj (htype.symm.trans htype')
        cases hnil
        exact ⟨_, _, hopens, hparts⟩
  · rintro ⟨parts, opened, hopens, hparts⟩
    exact .cons htype hopens hparts (.nil rest)

theorem Reads.listed (h : types.Reads id input rest) : ∃ type, types[id]? = some type := by
  cases h with
  | cons htype _ _ _ => exact ⟨_, htype⟩

end PortableTypes

end ChainClient

import ChainClient.Metadata.Basic
import ChainClient.Metadata.Blob

/-! From the types a blob lists to the descriptors of the codec.  A composite of one field
is as its field on the wire, and takes that field's descriptor. -/

namespace ChainClient

namespace PortableTypes

/-- References go by place in the list. -/
def resolve (types : PortableTypes) (id : TypeId) : Except MetadataError PortableType :=
  match types[id]? with
  | some type => .ok type
  | none => .error (.missingType id)

end PortableTypes

def PortableField.convert (field : PortableField) : Field :=
  ⟨field.name?, field.type⟩

def PortableVariant.convert (variant : PortableVariant) : Variant :=
  ⟨variant.index, variant.name, variant.fields.map PortableField.convert⟩

def PortablePrimitive.descriptor : PortablePrimitive → TypeDescriptor
  | .bool => .boolean
  | .string => .string
  | .char => .unsupported "char"
  | .integer width => .primitive width

/-- The inner types of a variant type that has the shape of a result. -/
def asResult? : List PortableVariant → Option (TypeId × TypeId)
  | [first, second] =>
      match first.fields, second.fields with
      | [ok], [err] =>
          if first.name = "Ok" ∧ second.name = "Err" then some (ok.type, err.type) else none
      | _, _ => none
  | _ => none

/-- The inner type of a variant type that has the shape of an option. -/
def asOption? : List PortableVariant → Option TypeId
  | [first, second] =>
      match first.fields, second.fields with
      | [], [inner] =>
          if first.name = "None" ∧ second.name = "Some" then some inner.type else none
      | _, _ => none
  | _ => none

/-- Enums go by the last segment of their path. -/
def enumName (path : List String) : String :=
  path.getLast?.getD "Enum"

def variantDescriptor (path : List String) (variants : List PortableVariant) :
    TypeDescriptor :=
  match asResult? variants with
  | some (ok, err) => .result ok err
  | none =>
      match asOption? variants with
      | some inner => .option inner
      | none => .enum (enumName path) (variants.map PortableVariant.convert)

def compositeDescriptor (fields : List PortableField) : TypeDescriptor :=
  if fields ≠ [] ∧ fields.all (·.name?.isSome) then
    .struct (fields.map PortableField.convert)
  else .tuple (fields.map (·.type))

/-- How many wrappers of one field are followed inwards. -/
def maxWrappers : Nat := 32

/-- The descriptor of a type when `wrappers` more wrappers may be followed. -/
def convertWithin (types : PortableTypes) :
    (wrappers : Nat) → TypeId → Except MetadataError TypeDescriptor
  | wrappers, id => do
      let type ← types.resolve id
      match type.definition with
      | .primitive kind => .ok kind.descriptor
      | .compact inner => .ok (.compact inner)
      | .sequence element => .ok (.list element none)
      | .array length element => .ok (.list element (some length))
      | .tuple fields => .ok (.tuple fields)
      | .bitSequence => .ok (.unsupported "BitSequence")
      | .variant variants => .ok (variantDescriptor type.path variants)
      | .composite [single] =>
          match wrappers with
          | 0 => .ok (.unsupported ("recursive wrapper " ++ toString id))
          | wrappers + 1 => convertWithin types wrappers single.type
      | .composite fields => .ok (compositeDescriptor fields)

/-- Every listed type, under the number it declares. -/
def convertTypes (types : PortableTypes) : Except MetadataError TypeRegistry :=
  types.foldlM
    (fun registry type => do
      return registry.insert type.id (← convertWithin types maxWrappers type.id))
    .empty

/-- The variants of a type, none if it is no variant type. -/
def variantsOf (types : PortableTypes) (id : TypeId) :
    Except MetadataError (List PortableVariant) := do
  match (← types.resolve id).definition with
  | .variant variants => .ok variants
  | _ => .ok []

def variantsOf? (types : PortableTypes) : Option TypeId →
    Except MetadataError (List PortableVariant)
  | some id => variantsOf types id
  | none => .ok []

def PortableVariant.toCall (variant : PortableVariant) : Call :=
  ⟨variant.index, variant.name, variant.fields.map PortableField.convert, variant.docs⟩

def PalletBlob.convert (types : PortableTypes) (pallet : PalletBlob) :
    Except MetadataError Pallet := do
  let calls ← variantsOf? types pallet.calls?
  let events ← variantsOf? types pallet.event?
  let errors ← variantsOf? types pallet.error?
  return {
    index := pallet.index
    name := pallet.name
    calls := calls.map PortableVariant.toCall
    events := events.map PortableVariant.convert
    errors := errors.map PortableVariant.convert
    storage := pallet.storage
    constants := pallet.constants.map fun (name, type, value, docs) =>
      ⟨name, type, value, docs⟩ }

def RuntimeBlob.convert (runtime : RuntimeBlob) : Except MetadataError Metadata := do
  let registry ← convertTypes runtime.types
  let pallets ← runtime.pallets.mapM (PalletBlob.convert runtime.types)
  return ⟨registry, pallets, runtime.extensions.map fun (name, type, additional) =>
    ⟨name, type, additional⟩⟩

/-- The magic number of a metadata blob: `meta` in ASCII. -/
def metadataMagic : Nat := 0x6174656d

/-- Reads a blob of version 14 or 15.  All of it is read before its magic number is looked
at, and bytes that follow it are ignored. -/
def parseMetadata : MetadataParser := fun blob =>
  match Scale.Reader.prefixed blob with
  | none => .error .decode
  | some ((magic, versioned), _) =>
      if magic = metadataMagic then
        match versioned with
        | .supported runtime => runtime.convert
        | .unsupported version => .error (.unsupportedVersion version)
      else .error (.invalidMagic magic)

end ChainClient

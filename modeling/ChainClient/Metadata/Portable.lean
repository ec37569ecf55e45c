import ChainClient.Metadata.Scale
import ChainClient.Registry

/-! Types as the metadata blob lists them. -/

namespace ChainClient

structure PortableField where
  name? : Option String
  type : TypeId
  deriving DecidableEq, Repr

structure PortableVariant where
  name : String
  fields : List PortableField
  index : UInt8
  docs : List String
  deriving DecidableEq, Repr

inductive PortablePrimitive where
  | bool
  | char
  | string
  | integer (width : Primitive)
  deriving DecidableEq, Repr

inductive PortableDef where
  | composite (fields : List PortableField)
  | variant (variants : List PortableVariant)
  | sequence (element : TypeId)
  | array (length : Nat) (element : TypeId)
  | tuple (fields : List TypeId)
  | primitive (kind : PortablePrimitive)
  | compact (inner : TypeId)
  | bitSequence
  deriving DecidableEq, Repr

structure PortableType where
  /-- The number it declares for itself, which need not be its place in the list. -/
  id : TypeId
  path : List String
  definition : PortableDef
  deriving DecidableEq, Repr

abbrev PortableTypes := List PortableType

namespace Scale.Reader

def typeId : Reader TypeId := compact

def portableField : Reader PortableField := do
  let name? ← option text
  let type ← typeId
  let _typeName ← option text
  let _docs ← texts
  return ⟨name?, type⟩

def portableVariant : Reader PortableVariant := do
  let name ← text
  let fields ← vector portableField
  let index ← byte
  let docs ← texts
  return ⟨name, fields, index, docs⟩

def integerWidths : List Nat := [8, 16, 32, 64, 128, 256]

def portablePrimitives : List PortablePrimitive :=
  [.bool, .char, .string] ++ integerWidths.map (fun bits => .integer ⟨bits, false⟩) ++
    integerWidths.map (fun bits => .integer ⟨bits, true⟩)

def portablePrimitive : Reader PortablePrimitive := do
  match portablePrimitives[(← byte).toNat]? with
  | some primitive => return primitive
  | none => fail

def portableDef : Reader PortableDef := do
  match (← byte).toNat with
  | 0 => return .composite (← vector portableField)
  | 1 => return .variant (← vector portableVariant)
  | 2 => return .sequence (← typeId)
  | 3 => return .array (← natLE 4) (← typeId)
  | 4 => return .tuple (← vector typeId)
  | 5 => return .primitive (← portablePrimitive)
  | 6 => return .compact (← typeId)
  | 7 =>
      let _store ← typeId
      let _order ← typeId
      return .bitSequence
  | _ => fail

def typeParameter : Reader Unit := do
  let _name ← text
  let _type ← option typeId

def portableType : Reader PortableType := do
  let id ← typeId
  let path ← texts
  let _parameters ← vector typeParameter
  let definition ← portableDef
  let _docs ← texts
  return ⟨id, path, definition⟩

def portableTypes : Reader PortableTypes := vector portableType

end Scale.Reader

end ChainClient

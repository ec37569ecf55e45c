import ChainClient.Assoc

/-! Type descriptors, and the registry that names them by number. -/

namespace ChainClient

abbrev TypeId := Nat

/-- A fixed-width integer.  Any width can be declared. -/
structure Primitive where
  bits : Nat
  signed : Bool
  deriving DecidableEq, Repr

namespace Primitive

def u8 : Primitive := ⟨8, false⟩

def unsigned (bits : Nat) : Primitive := ⟨bits, false⟩

def signedOf (bits : Nat) : Primitive := ⟨bits, true⟩

/-- Encoded size in bytes, or none for widths that the codec does not carry. -/
def byteLength? (primitive : Primitive) : Option Nat :=
  if primitive.bits ∈ [8, 16, 32, 64, 128] then some (primitive.bits / 8) else none

def name (primitive : Primitive) : String :=
  (if primitive.signed then "i" else "u") ++ toString primitive.bits

end Primitive

structure Field where
  name? : Option String
  type : TypeId
  deriving DecidableEq, Repr

/-- Unnamed fields go by their position. -/
def Field.effectiveName (position : Nat) (field : Field) : String :=
  field.name?.getD (toString position)

structure Variant where
  index : UInt8
  name : String
  fields : List Field
  deriving DecidableEq, Repr

inductive TypeDescriptor where
  | primitive (width : Primitive)
  | boolean
  | string
  | compact (inner : TypeId)
  | option (inner : TypeId)
  | result (ok err : TypeId)
  | tuple (fields : List TypeId)
  | list (element : TypeId) (length? : Option Nat)
  | struct (fields : List Field)
  | enum (name : String) (variants : List Variant)
  /-- A type that is declared and that the codec does not handle. -/
  | unsupported (tag : String)
  deriving DecidableEq, Repr

def TypeDescriptor.tag : TypeDescriptor → String
  | .primitive width => width.name
  | .boolean => "bool"
  | .string => "str"
  | .compact _ => "Compact"
  | .option _ => "Option"
  | .result .. => "Result"
  | .tuple _ => "Tuple"
  | .list .. => "List"
  | .struct _ => "Struct"
  | .enum name _ => name
  | .unsupported tag => tag

structure TypeRegistry where
  entries : List (TypeId × TypeDescriptor)
  deriving DecidableEq, Repr

namespace TypeRegistry

def empty : TypeRegistry := ⟨[]⟩

def get? (registry : TypeRegistry) (id : TypeId) : Option TypeDescriptor :=
  registry.entries.lookup id

/-- A later entry replaces an earlier one of the same number. -/
def insert (registry : TypeRegistry) (id : TypeId) (descriptor : TypeDescriptor) :
    TypeRegistry :=
  ⟨Assoc.put id descriptor registry.entries⟩

def ofList (entries : List (TypeId × TypeDescriptor)) : TypeRegistry :=
  entries.foldl (fun registry entry => registry.insert entry.1 entry.2) empty

def size (registry : TypeRegistry) : Nat := registry.entries.length

def isEmpty (registry : TypeRegistry) : Bool := registry.entries.isEmpty

/-- Whether `id` is the unsigned 8-bit integer. -/
def isByte (registry : TypeRegistry) (id : TypeId) : Bool :=
  registry.get? id = some (.primitive .u8)

@[simp] theorem get?_empty (id : TypeId) : empty.get? id = none := rfl

theorem get?_insert (registry : TypeRegistry) (id other : TypeId)
    (descriptor : TypeDescriptor) :
    (registry.insert id descriptor).get? other =
      if other = id then some descriptor else registry.get? other :=
  Assoc.lookup_put id other descriptor registry.entries

end TypeRegistry

end ChainClient

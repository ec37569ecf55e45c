import ChainClient.Codec.Compact
import ChainClient.Value.Basic

/-! Reading a value off the front of a byte string, as the registry describes its type. -/

namespace ChainClient.Codec

/-- Types nest at most this deep.  Registries may be cyclic. -/
def maxDepth : Nat := 256

/-- Marks the value of an option whose inner type is an option too, so that an empty inner
option stays distinct from an empty outer one. -/
def someName : String := "Option::Some"

def resolve (registry : TypeRegistry) (id : TypeId) : Except CodecError TypeDescriptor :=
  match registry.get? id with
  | some descriptor => .ok descriptor
  | none => .error (.unknownType id)

/-- Reads values off the front of the input one after another. -/
def decodeEach (read : α → Bytes → Except CodecError (Value × Bytes)) :
    List α → Bytes → Except CodecError (List Value × Bytes)
  | [], input => .ok ([], input)
  | item :: items, input => do
      let (value, input) ← read item input
      let (values, input) ← decodeEach read items input
      .ok (value :: values, input)

def decodeRepeated (read : Bytes → Except CodecError (Value × Bytes)) :
    Nat → Bytes → Except CodecError (List Value × Bytes)
  | 0, input => .ok ([], input)
  | count + 1, input => do
      let (value, input) ← read input
      let (values, input) ← decodeRepeated read count input
      .ok (value :: values, input)

/-- The integer whose two's complement in `bits` bits is `n`. -/
def toSigned (bits n : Nat) : Int :=
  if n < 2 ^ (bits - 1) then n else (n : Int) - 2 ^ bits

def decodePrimitive (id : TypeId) (primitive : Primitive) (input : Bytes) :
    Except CodecError (Value × Bytes) := do
  match primitive.byteLength? with
  | none => .error (.unsupportedType id primitive.name)
  | some length =>
      let (raw, rest) ← take length input
      if primitive.signed then .ok (.signed (toSigned primitive.bits raw.toNatLE), rest)
      else .ok (.unsigned raw.toNatLE, rest)

def decodeBool (input : Bytes) : Except CodecError (Value × Bytes) := do
  let (byte, rest) ← takeByte input
  if byte = 0 then .ok (.bool false, rest)
  else if byte = 1 then .ok (.bool true, rest)
  else .error (.invalidVariantIndex "bool" byte)

def decodeString (input : Bytes) : Except CodecError (Value × Bytes) := do
  let (length, input) ← decodeCompact input
  let (raw, rest) ← take length input
  match raw.toString? with
  | some text => .ok (.string text, rest)
  | none => .error .invalidUtf8

def decodeCompactValue (input : Bytes) : Except CodecError (Value × Bytes) := do
  let (n, rest) ← decodeCompact input
  .ok (.unsigned n, rest)

/-- The names under which the fields of a struct are read. -/
def fieldNames (fields : List Field) : List String :=
  fields.mapIdx Field.effectiveName

def listLength (length? : Option Nat) (input : Bytes) : Except CodecError (Nat × Bytes) :=
  match length? with
  | some length => .ok (length, input)
  | none => decodeCompact input

/-- Reads a value whose type nests fewer than `budget` levels deep. -/
def decodeWithin (registry : TypeRegistry) :
    (budget : Nat) → TypeId → Bytes → Except CodecError (Value × Bytes)
  | 0, _, _ => .error (.recursionLimit maxDepth)
  | budget + 1, id, input => do
      match ← resolve registry id with
      | .boolean => decodeBool input
      | .primitive width => decodePrimitive id width input
      | .string => decodeString input
      | .compact _ => decodeCompactValue input
      | .option inner =>
          let (byte, input) ← takeByte input
          if byte = 0 then .ok (.null, input)
          else if byte = 1 then
            let (value, rest) ← decodeWithin registry budget inner input
            match ← resolve registry inner with
            | .option _ => .ok (.variant someName 1 [value], rest)
            | _ => .ok (value, rest)
          else .error (.invalidVariantIndex "Option" byte)
      | .result ok err =>
          let (byte, input) ← takeByte input
          if byte = 0 then
            let (value, rest) ← decodeWithin registry budget ok input
            .ok (.variant "Result::Ok" 0 [value], rest)
          else if byte = 1 then
            let (value, rest) ← decodeWithin registry budget err input
            .ok (.variant "Result::Err" 1 [value], rest)
          else .error (.invalidVariantIndex "Result" byte)
      | .tuple types =>
          let (values, rest) ← decodeEach (decodeWithin registry budget) types input
          .ok (.sequence values, rest)
      | .struct fields =>
          let (values, rest) ←
            decodeEach (fun field => decodeWithin registry budget field.type) fields input
          .ok (.composite ((fieldNames fields).zip values), rest)
      | .enum name variants =>
          let (byte, input) ← takeByte input
          match variants.find? (·.index = byte) with
          | none => .error (.invalidVariantIndex name byte)
          | some variant =>
              let (values, rest) ←
                decodeEach (fun field => decodeWithin registry budget field.type)
                  variant.fields input
              .ok (.variant (name ++ "::" ++ variant.name) variant.index values, rest)
      | .list element length? =>
          let (length, input) ← listLength length? input
          if registry.isByte element then
            let (raw, rest) ← take length input
            .ok (.ofBytes raw, rest)
          else
            let (values, rest) ←
              decodeRepeated (decodeWithin registry budget element) length input
            .ok (.sequence values, rest)
      | .unsupported tag => .error (.unsupportedType id tag)

theorem decodeWithin_zero (registry : TypeRegistry) (id : TypeId) (input : Bytes) :
    decodeWithin registry 0 id input = .error (.recursionLimit maxDepth) := by
  rw [decodeWithin]

/-- Reads one value of type `id` and gives it with the bytes that follow it. -/
def decodePrefix (registry : TypeRegistry) (id : TypeId) (input : Bytes) :
    Except CodecError (Value × Bytes) :=
  decodeWithin registry maxDepth id input

/-- Reads one value of type `id` and gives it with the number of bytes it takes. -/
def decode (registry : TypeRegistry) (id : TypeId) (input : Bytes) :
    Except CodecError (Value × Nat) := do
  let (value, rest) ← decodePrefix registry id input
  .ok (value, input.length - rest.length)

end ChainClient.Codec

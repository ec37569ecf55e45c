import ChainClient.Codec.Decode

/-! Writing a value as a type of the registry.  Besides the forms that reading produces, an
option takes its inner value bare, a struct its fields by position, a list of bytes their
integers, and an enum the name of a variant without fields. -/

namespace ChainClient.Codec

def mismatch (id : TypeId) (expected : String) (found : Value) : Except CodecError α :=
  .error (.encodingMismatch id expected found.kind)

/-- Appends what is written for each item. -/
def encodeEach (write : α → Except CodecError Bytes) : List α → Except CodecError Bytes
  | [] => .ok []
  | item :: items => do
      let first ← write item
      let rest ← encodeEach write items
      .ok (first ++ rest)

/-- The integer a value stands for. -/
def toInt? : Value → Option Int
  | .unsigned n => some n
  | .signed n => some n
  | _ => none

def Fits (primitive : Primitive) (n : Int) : Prop :=
  if primitive.signed then -2 ^ (primitive.bits - 1) ≤ n ∧ n < 2 ^ (primitive.bits - 1)
  else 0 ≤ n ∧ n < 2 ^ primitive.bits

instance (primitive : Primitive) (n : Int) : Decidable (Fits primitive n) := by
  unfold Fits
  infer_instance

def encodePrimitive (id : TypeId) (primitive : Primitive) (value : Value) :
    Except CodecError Bytes :=
  match primitive.byteLength? with
  | none => .error (.unsupportedType id primitive.name)
  | some length =>
      match toInt? value with
      | none => mismatch id primitive.name value
      | some n =>
          if Fits primitive n then .ok (Bytes.ofNatLE length (n % 2 ^ primitive.bits).toNat)
          else mismatch id primitive.name value

def encodeString (text : String) : Except CodecError Bytes := do
  let raw := Bytes.ofString text
  let lengthBytes ← encodeCompact raw.length
  .ok (lengthBytes ++ raw)

def encodeCompactValue (id : TypeId) (value : Value) : Except CodecError Bytes :=
  match value.toNat? with
  | some n => encodeCompact n
  | none => mismatch id "Compact" value

/-- The variant without fields that a text names, qualified by the enum's name or not. -/
def variantNamed? (enumName : String) (variants : List Variant) (given : String) :
    Option Variant :=
  let qualifier := enumName.toList ++ [':', ':']
  let short :=
    if qualifier.isPrefixOf given.toList then given.toList.drop qualifier.length
    else given.toList
  variants.find? fun variant => variant.name.toList = short ∧ variant.fields = []

/-- The variant that a value selects, with the values of its fields. -/
def selectVariant (id : TypeId) (name : String) (variants : List Variant) (value : Value) :
    Except CodecError (Variant × List Value) :=
  match value with
  | .variant _ index items =>
      match variants.find? (·.index = index) with
      | some variant => .ok (variant, items)
      | none => .error (.invalidVariantIndex name index)
  | .string given =>
      match variantNamed? name variants given with
      | some variant => .ok (variant, [])
      | none => mismatch id name value
  | _ => mismatch id name value

def checkLength (id : TypeId) (value : Value) (length? : Option Nat) (length : Nat) :
    Except CodecError Unit :=
  match length? with
  | some fixed =>
      if fixed = length then .ok ()
      else mismatch id ("list of " ++ toString fixed ++ " elements") value
  | none => .ok ()

/-- What precedes the elements of a list: their count, unless the type fixes it. -/
def encodeLength (length? : Option Nat) (length : Nat) : Except CodecError Bytes :=
  match length? with
  | some _ => .ok []
  | none => encodeCompact length

def encodeByteList (id : TypeId) (value : Value) (length? : Option Nat) :
    Except CodecError Bytes := do
  match value.toBytes? with
  | none => mismatch id "0x-prefixed hex bytes" value
  | some raw =>
      checkLength id value length? raw.length
      let lengthBytes ← encodeLength length? raw.length
      .ok (lengthBytes ++ raw)

/-- Writes the values paired with the fields of a struct, in the order of the fields; an
error of one field is met before a later field is looked up. -/
def encodeNamed (write : Value → TypeId → Except CodecError Bytes) (id : TypeId)
    (value : Value) : Nat → List Field → Except CodecError Bytes
  | _, [] => .ok []
  | position, field :: rest => do
      let name := field.effectiveName position
      match value.get? name with
      | none => mismatch id ("struct with field '" ++ name ++ "'") value
      | some item =>
          let first ← write item field.type
          let bytes ← encodeNamed write id value (position + 1) rest
          .ok (first ++ bytes)

/-- Writes a value at a type that nests fewer than `budget` levels deep. -/
def encodeWithin (registry : TypeRegistry) :
    (budget : Nat) → Value → TypeId → Except CodecError Bytes
  | 0, _, _ => .error (.recursionLimit maxDepth)
  | budget + 1, value, id => do
      let write := encodeWithin registry budget
      match ← resolve registry id with
      | .boolean =>
          match value with
          | .bool b => .ok [if b then 1 else 0]
          | _ => mismatch id "bool" value
      | .primitive width => encodePrimitive id width value
      | .string =>
          match value with
          | .string text => encodeString text
          | _ => mismatch id "str" value
      | .compact _ => encodeCompactValue id value
      | .option inner =>
          match value with
          | .null => .ok [0]
          | .variant name _ items =>
              if name = someName then
                match items with
                | [item] => (1 :: ·) <$> write item inner
                | _ => mismatch id "Option::Some with exactly one field" value
              else (1 :: ·) <$> write value inner
          | _ => (1 :: ·) <$> write value inner
      | .result ok err =>
          match value with
          | .variant _ index items =>
              if index = 0 ∨ index = 1 then
                match items with
                | [item] => (index :: ·) <$> write item (if index = 0 then ok else err)
                | _ => mismatch id "Result with exactly one field" value
              else .error (.invalidVariantIndex "Result" index)
          | _ => mismatch id "Result" value
      | .tuple types =>
          match value with
          | .sequence items =>
              if items.length = types.length then
                encodeEach (fun pair => write pair.1 pair.2) (items.zip types)
              else mismatch id ("tuple of " ++ toString types.length ++ " fields") value
          | _ => mismatch id "Tuple" value
      | .struct fields =>
          match value with
          | .composite _ => encodeNamed write id value 0 fields
          | .sequence items =>
              if items.length = fields.length then
                encodeEach (fun pair => write pair.1 pair.2.type) (items.zip fields)
              else mismatch id ("struct of " ++ toString fields.length ++ " fields") value
          | _ => mismatch id ("struct of " ++ toString fields.length ++ " fields") value
      | .enum name variants =>
          let (variant, items) ← selectVariant id name variants value
          if items.length = variant.fields.length then
            (variant.index :: ·) <$>
              encodeEach (fun pair => write pair.1 pair.2.type) (items.zip variant.fields)
          else
            mismatch id
              (name ++ "::" ++ variant.name ++ " with " ++ toString variant.fields.length ++
                " fields")
              value
      | .list element length? =>
          match value with
          | .string _ =>
              if registry.isByte element then encodeByteList id value length?
              else mismatch id "list" value
          | .sequence items =>
              checkLength id value length? items.length
              let lengthBytes ← encodeLength length? items.length
              let bytes ← encodeEach (write · element) items
              .ok (lengthBytes ++ bytes)
          | _ => mismatch id "list" value
      | .unsupported tag => .error (.unsupportedType id tag)

theorem encodeWithin_zero (registry : TypeRegistry) (value : Value) (id : TypeId) :
    encodeWithin registry 0 value id = .error (.recursionLimit maxDepth) := by
  rw [encodeWithin]

/-- Writes `value` as type `id`. -/
def encode (registry : TypeRegistry) (id : TypeId) (value : Value) :
    Except CodecError Bytes :=
  encodeWithin registry maxDepth value id

end ChainClient.Codec

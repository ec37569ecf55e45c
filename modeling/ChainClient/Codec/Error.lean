import ChainClient.Registry

namespace ChainClient

inductive CodecError where
  | unknownType (id : TypeId)
  | unsupportedType (id : TypeId) (tag : String)
  | compactOutOfRange (n : Nat)
  | unsupportedCompactMode
  | encodingMismatch (id : TypeId) (expected found : String)
  | invalidVariantIndex (name : String) (index : UInt8)
  | unexpectedEnd (needed remaining : Nat)
  | invalidUtf8
  | recursionLimit (levels : Nat)
  deriving DecidableEq, Repr

def CodecError.name : CodecError → String
  | .unknownType _ => "UnknownType"
  | .unsupportedType .. => "UnsupportedType"
  | .compactOutOfRange _ => "CompactOutOfRange"
  | .unsupportedCompactMode => "UnsupportedCompactMode"
  | .encodingMismatch .. => "EncodingMismatch"
  | .invalidVariantIndex .. => "InvalidVariantIndex"
  | .unexpectedEnd .. => "UnexpectedEnd"
  | .invalidUtf8 => "InvalidUtf8"
  | .recursionLimit _ => "RecursionLimit"

def CodecError.message : CodecError → String
  | .unknownType id => "Type id " ++ toString id ++ " is not in the registry"
  | .unsupportedType id tag =>
      "Unsupported type '" ++ tag ++ "' (type id " ++ toString id ++ ")"
  | .compactOutOfRange n =>
      "Compact value " ++ toString n ++ " is out of range (must be below 2^30)"
  | .unsupportedCompactMode => "Unsupported compact encoding mode 0b11"
  | .encodingMismatch id expected found =>
      "Cannot encode " ++ found ++ " as '" ++ expected ++ "' (type id " ++
        toString id ++ ")"
  | .invalidVariantIndex name index =>
      "Invalid variant index " ++ toString index.toNat ++ " for '" ++ name ++ "'"
  | .unexpectedEnd needed remaining =>
      "Unexpected end of input: needed " ++ toString needed ++ " bytes, " ++
        toString remaining ++ " remaining"
  | .invalidUtf8 => "String is not valid UTF-8"
  | .recursionLimit levels => "Type nesting exceeds " ++ toString levels ++ " levels"

end ChainClient

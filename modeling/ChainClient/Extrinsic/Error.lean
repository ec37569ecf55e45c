import ChainClient.Codec.Error

namespace ChainClient

inductive ExtrinsicError where
  | unsupportedExtension (name : String)
  | missingNonce
  | argumentCount (expected got : Nat)
  | argument (type param : String) (cause : CodecError)
  | extension (name : String) (cause : CodecError)
  deriving DecidableEq, Repr

def ExtrinsicError.name : ExtrinsicError → String
  | .unsupportedExtension _ => "UnsupportedSigningExtension"
  | .missingNonce => "MissingNonce"
  | .argumentCount .. => "ArgumentCount"
  | .argument .. => "Argument"
  | .extension .. => "Extension"

def ExtrinsicError.message : ExtrinsicError → String
  | .unsupportedExtension name => "Unsupported signed extension: " ++ name
  | .missingNonce => "Missing account nonce"
  | .argumentCount expected got =>
      "Expected " ++ toString expected ++ " params, got " ++ toString got
  | .argument type param _ => "Could not encode " ++ type ++ " from " ++ param
  | .extension name cause => "Failed to encode " ++ name ++ ": " ++ cause.message

end ChainClient

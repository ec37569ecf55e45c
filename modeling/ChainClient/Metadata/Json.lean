import ChainClient.Metadata.Basic

/-! Metadata as JSON. -/

namespace ChainClient

def Field.toJson (field : Field) : Json :=
  .object
    [("name", match field.name? with
      | some name => .string name
      | none => .null),
      ("ty", .nat field.type)]

def Variant.toJson (variant : Variant) : Json :=
  .object
    [("index", .nat variant.index.toNat), ("name", .string variant.name),
      ("fields", .array (variant.fields.map Field.toJson))]

def docsJson (docs : List String) : Json := .array (docs.map .string)

def Call.toJson (call : Call) : Json :=
  .object
    [("index", .nat call.index.toNat), ("name", .string call.name),
      ("fields", .array (call.fields.map Field.toJson)), ("docs", docsJson call.docs)]

def Constant.toJson (constant : Constant) : Json :=
  .object
    [("name", .string constant.name), ("ty", .nat constant.type),
      ("value", .array (constant.value.map fun byte => .nat byte.toNat)),
      ("docs", docsJson constant.docs)]

def Pallet.toJson (pallet : Pallet) : Json :=
  .object
    [("index", .nat pallet.index.toNat), ("name", .string pallet.name),
      ("calls", .array (pallet.calls.map Call.toJson)),
      ("events", .array (pallet.events.map Variant.toJson)),
      ("errors", .array (pallet.errors.map Variant.toJson)),
      ("storage", .array (pallet.storage.map StorageItem.toJson)),
      ("constants", .array (pallet.constants.map Constant.toJson))]

def SignedExtension.toJson (extension : SignedExtension) : Json :=
  .object
    [("name", .string extension.name), ("ty", .nat extension.type),
      ("additional", .nat extension.additional)]

def extensionsJson (extensions : List SignedExtension) : Json :=
  .array (extensions.map SignedExtension.toJson)

end ChainClient

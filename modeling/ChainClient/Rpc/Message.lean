import ChainClient.Rpc.Record

/-! Messages from a node: answers to requests, and pushes of subscriptions. -/

namespace ChainClient

structure RpcError where
  code : Int
  message : String
  data? : Option Json
  deriving BEq, Repr

structure PushParams where
  subscription : Json
  /-- Null when the push carries nothing. -/
  result : Json
  deriving BEq, Repr

structure Response where
  result? : Option Json
  error? : Option RpcError
  deriving BEq, Repr

structure Message where
  idJson? : Option Json
  method? : Option String
  params? : Option PushParams
  result? : Option Json
  error? : Option RpcError
  deriving BEq, Repr

/-- Ids are strings, or numbers that stand for their text. -/
def idText? : Json → Option String
  | .string text => some text
  | .number n => some (String.ofList n.text)
  | _ => none

namespace RpcError

def ofWritten? (budget : Nat) (written : Json.Written) : Option RpcError := do
  let record ← written.record? ["code", "message", "data"] budget
  let code ← record.required? "code" Json.Written.int64?
  let message ← record.required? "message" Json.Written.string?
  let data? ← record.optional? "data" (Json.Written.toJson? (budget - 1))
  return ⟨code, message, data?⟩

def toJson (error : RpcError) : Json :=
  .object
    ([("code", .number (.int error.code)), ("message", .string error.message)] ++
      match error.data? with
      | some data => [("data", data)]
      | none => [])

end RpcError

namespace PushParams

def ofWritten? (budget : Nat) (written : Json.Written) : Option PushParams := do
  let record ← written.record? ["subscription", "result"] budget
  let subscription ← record.required? "subscription" (Json.Written.toJson? (budget - 1))
  let result ← record.defaulted? "result" .null (Json.Written.toJson? (budget - 1))
  return ⟨subscription, result⟩

end PushParams

namespace Message

def ofWritten? (budget : Nat) (written : Json.Written) : Option Message := do
  let record ← written.record? ["id", "method", "params", "result", "error"] budget
  let id? ← record.optional? "id" (Json.Written.toJson? (budget - 1))
  let method? ← record.optional? "method" Json.Written.string?
  let params? ← record.optional? "params" (PushParams.ofWritten? (budget - 1))
  let result? ← record.optional? "result" (Json.Written.toJson? (budget - 1))
  let error? ← record.optional? "error" (RpcError.ofWritten? (budget - 1))
  return ⟨id?, method?, params?, result?, error?⟩

def parse? (text : String) : Option Message := do
  ofWritten? Json.nestingBudget (← Json.Written.parse? text)

def id? (message : Message) : Option String := message.idJson?.bind idText?

/-- The subscription that a push belongs to. -/
def subscription? (message : Message) : Option String :=
  message.params?.bind fun params => idText? params.subscription

/-- What a push carries. -/
def payload (message : Message) : Json :=
  match message.params? with
  | some params => params.result
  | none => .null

def response (message : Message) : Response := ⟨message.result?, message.error?⟩

end Message

end ChainClient

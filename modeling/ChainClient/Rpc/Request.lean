import ChainClient.Json.Printer

namespace ChainClient

structure Request where
  id : String
  method : String
  params : List Json
  deriving BEq, Repr

namespace Request

/-- Parameters are left out when there are none. -/
def toJson (request : Request) : Json :=
  .object
    ([("jsonrpc", .string "2.0"), ("id", .string request.id),
        ("method", .string request.method)] ++
      if request.params.isEmpty then [] else [("params", .array request.params)])

def render (request : Request) : String := request.toJson.render

end Request

end ChainClient

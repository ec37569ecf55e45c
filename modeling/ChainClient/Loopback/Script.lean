import ChainClient.Rpc.Request

/-! The node's side of a link within one process: messages, and rules by which requests are
answered. -/

namespace ChainClient.Loopback

def response (id result : Json) : Json :=
  .object [("jsonrpc", .string "2.0"), ("id", id), ("result", result)]

def errorResponse (id code message : Json) : Json :=
  .object [("jsonrpc", .string "2.0"), ("id", id),
    ("error", .object [("code", code), ("message", message)])]

def notification (method subscription result : Json) : Json :=
  .object [("jsonrpc", .string "2.0"), ("method", method),
    ("params", .object [("subscription", subscription), ("result", result)])]

/-- Messages that answer the requests of a method, of any
parameters unless some are given. -/
structure Rule where
  method : String
  params? : Option (List Json)
  replies : List Json
  once : Bool

namespace Rule

def covers (rule : Rule) (request : Request) : Bool :=
  rule.method = request.method && rule.params?.all fun params => params == request.params

/-- Stands for the id of the request in a reply. -/
def idMark : String := "$id"

def fillMember (request : Request) : String × Json → String × Json
  | ("id", .string mark) => ("id", .string (if mark = idMark then request.id else mark))
  | member => member

def fill (request : Request) : Json → Json
  | .object members => .object (members.map (fillMember request))
  | reply => reply

end Rule

/-- The replies of the first rule that covers a request, and the rules that are left. -/
def answer (request : Request) : List Rule → List Json × List Rule
  | [] => ([], [])
  | rule :: rest =>
      if rule.covers request then
        (rule.replies.map (Rule.fill request), if rule.once then rest else rule :: rest)
      else
        let (replies, rest) := answer request rest
        (replies, rule :: rest)

end ChainClient.Loopback

namespace ChainClient

inductive SessionError where
  /-- No connection could be opened. -/
  | webSocket
  /-- There is no connection, or it was closed before an answer came. -/
  | closed
  /-- The node answered with an error. -/
  | rpc (code : Int) (message : String)
  /-- The answer is not what the method promises.  Where its shape
  is wrong there is no detail. -/
  | unexpectedResponse (method : String) (detail? : Option String)
  deriving DecidableEq, Repr

def SessionError.name : SessionError → String
  | .webSocket => "WebSocket"
  | .closed => "Closed"
  | .rpc .. => "Rpc"
  | .unexpectedResponse .. => "UnexpectedResponse"

def SessionError.message? : SessionError → Option String
  | .webSocket => none
  | .closed => some "Connection closed"
  | .rpc code message => some ("RPC error " ++ toString code ++ ": " ++ message)
  | .unexpectedResponse method detail? =>
      detail?.map fun detail => "Unexpected response to " ++ method ++ ": " ++ detail

end ChainClient

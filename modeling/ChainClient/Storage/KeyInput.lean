import ChainClient.Address.Ss58
import ChainClient.Json.Parser
import ChainClient.Text.Blank
import ChainClient.Text.Numeral
import ChainClient.Value.Text

/-! Map keys as people type them. -/

namespace ChainClient.KeyInput

/-- JSON arrays and objects give tuple and struct keys. -/
def structured? (text : List Char) : Option Value :=
  match text with
  | '[' :: _ => (Json.parse? (String.ofList text)).map .ofJson
  | '\x7b' :: _ => (Json.parse? (String.ofList text)).map .ofJson
  | _ => none

def bytes? (text : List Char) : Option Value :=
  (Hex.decode0x? (String.ofList text)).map .ofBytes

def account? (text : List Char) : Option Value :=
  (Ss58.decode? (String.ofList text)).map .ofBytes

def unsigned? (text : List Char) : Option Value :=
  (Text.parseNatural (2 ^ 128) text).toOption.map .unsigned

def signed? (text : List Char) : Option Value :=
  (Text.parseInteger? (2 ^ 127) text).map .signed

def bool? (text : List Char) : Option Value :=
  if text = ['t', 'r', 'u', 'e'] then some (.bool true)
  else if text = ['f', 'a', 'l', 's', 'e'] then some (.bool false)
  else none

/-- The first reading that fits, and the text itself when none does. -/
def parse (input : String) : Value :=
  let text := Text.trim input.toList
  (structured? text <|> bytes? text <|> account? text <|> unsigned? text <|>
    signed? text <|> bool? text).getD (.string (String.ofList text))

end ChainClient.KeyInput

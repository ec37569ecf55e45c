import ChainClient.Json.Basic

/-! JSON text without blanks. -/

namespace ChainClient.Json

def hexDigit (value : Nat) : Char :=
  if value < 10 then Char.ofNat (48 + value) else Char.ofNat (87 + value)

/-- Only quotes, backslashes and controls are escaped. -/
def escapeChar (c : Char) : List Char :=
  if c = '"' then ['\\', '"']
  else if c = '\\' then ['\\', '\\']
  else if c = '\x08' then ['\\', 'b']
  else if c = '\x0c' then ['\\', 'f']
  else if c = '\n' then ['\\', 'n']
  else if c = '\r' then ['\\', 'r']
  else if c = '\t' then ['\\', 't']
  else if c.toNat < 32 then
    ['\\', 'u', '0', '0', hexDigit (c.toNat / 16), hexDigit (c.toNat % 16)]
  else [c]

def quoted (text : String) : List Char :=
  '"' :: text.toList.flatMap escapeChar ++ ['"']

mutual

def chars : Json → List Char
  | .null => ['n', 'u', 'l', 'l']
  | .bool true => ['t', 'r', 'u', 'e']
  | .bool false => ['f', 'a', 'l', 's', 'e']
  | .number n => n.text
  | .string text => quoted text
  | .array [] => ['[', ']']
  | .array (item :: rest) => '[' :: item.chars ++ itemsChars rest
  | .object [] => ['\x7b', '\x7d']
  | .object ((name, member) :: rest) =>
      '\x7b' :: quoted name ++ ':' :: member.chars ++ membersChars rest

def itemsChars : List Json → List Char
  | [] => [']']
  | item :: rest => ',' :: item.chars ++ itemsChars rest

def membersChars : List (String × Json) → List Char
  | [] => ['\x7d']
  | (name, member) :: rest =>
      ',' :: quoted name ++ ':' :: member.chars ++ membersChars rest

end

def render (json : Json) : String :=
  String.ofList json.chars

end ChainClient.Json

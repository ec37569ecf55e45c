/-! Single characters written between quotes, with escapes for those that cannot be seen. -/

namespace ChainClient.Text

def hexNumeral (n : Nat) : String :=
  String.ofList (Nat.toDigits 16 n)

/-- Covers the first 256 code points: controls, the no-break space and the soft hyphen stay
unseen. -/
def isVisible (c : Char) : Bool :=
  let code := c.toNat
  decide (32 ≤ code) && !(decide (127 ≤ code) && decide (code ≤ 160)) && code != 173

def escapeChar (c : Char) : String :=
  if c = '\x00' then "\\0"
  else if c = '\t' then "\\t"
  else if c = '\r' then "\\r"
  else if c = '\n' then "\\n"
  else if c = '\'' then "\\'"
  else if c = '\\' then "\\\\"
  else if isVisible c then c.toString
  else "\\u\x7b" ++ hexNumeral c.toNat ++ "\x7d"

def charLiteral (c : Char) : String :=
  "'" ++ escapeChar c ++ "'"

end ChainClient.Text

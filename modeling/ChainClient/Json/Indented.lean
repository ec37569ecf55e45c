import ChainClient.Json.Printer

/-! JSON text with one item or member a line, indented by two blanks a level. -/

namespace ChainClient.Json

/-- A line break, and the blanks in front of what stands `level` deep. -/
def lineBreak (level : Nat) : List Char :=
  '\n' :: List.replicate (2 * level) ' '

mutual

def indentedChars (level : Nat) : Json → List Char
  | .array (item :: rest) =>
      '[' :: lineBreak (level + 1) ++ item.indentedChars (level + 1) ++
        indentedItems level rest
  | .object ((name, member) :: rest) =>
      '\x7b' :: lineBreak (level + 1) ++ quoted name ++ ':' :: ' ' ::
        member.indentedChars (level + 1) ++ indentedMembers level rest
  | json => json.chars

def indentedItems (level : Nat) : List Json → List Char
  | [] => lineBreak level ++ [']']
  | item :: rest =>
      ',' :: lineBreak (level + 1) ++ item.indentedChars (level + 1) ++
        indentedItems level rest

def indentedMembers (level : Nat) : List (String × Json) → List Char
  | [] => lineBreak level ++ ['\x7d']
  | (name, member) :: rest =>
      ',' :: lineBreak (level + 1) ++ quoted name ++ ':' :: ' ' ::
        member.indentedChars (level + 1) ++ indentedMembers level rest

end

def renderIndented (json : Json) : String :=
  String.ofList (json.indentedChars 0)

end ChainClient.Json

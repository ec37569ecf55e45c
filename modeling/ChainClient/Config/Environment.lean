import ChainClient.Assoc

/-! The environment of a process: variables in the order in which they were first set. -/

namespace ChainClient

abbrev Environment := List (String × String)

namespace Environment

/-- Reads an entry of a process: a name, an equals sign and a value.  An equals sign
in front is part of the name. -/
def ofEntry? (entry : String) : Option (String × String) :=
  match entry.toList with
  | [] => none
  | first :: rest =>
      match rest.dropWhile (· ≠ '=') with
      | [] => none
      | _ :: value =>
          some (String.ofList (first :: rest.takeWhile (· ≠ '=')), String.ofList value)

/-- Entries are kept as the name, an equals sign and the value.  A name is found before any
equals sign of an entry, not only the first. -/
def value? (environment : Environment) (name : String) : Option String :=
  if name = "" then none
  else
    environment.findSome? fun (key, value) =>
      let entry := (key ++ "=" ++ value).toList
      let lead := (name ++ "=").toList
      if lead.isPrefixOf entry then some (String.ofList (entry.drop lead.length)) else none

/-- Sets a variable unless it is set already. -/
def setNew (environment : Environment) (name value : String) : Environment :=
  if (environment.value? name).isSome then environment else environment ++ [(name, value)]

end Environment

end ChainClient

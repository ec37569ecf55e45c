import ChainClient.Json.Parser

/-! Reading values of known shape from JSON as written.

A record is an object whose known members occur at most once, or an array of its fields in
order, which may stop early.  Members of other names are passed over unread.  Containers
count against the nesting budget as they are entered. -/

namespace ChainClient

abbrev Record := List (String × Json.Written)

namespace Json.Written

def knownMembers? (names : List String) (found : Record) :
    List (Option String × Written) → Option Record
  | [] => some found
  | (none, _) :: _ => none
  | (some name, member) :: rest =>
      if name ∈ names then
        if (found.lookup name).isSome then none
        else knownMembers? names ((name, member) :: found) rest
      else knownMembers? names found rest

def record? (names : List String) (budget : Nat) : Written → Option Record
  | .object members => if budget ≤ 1 then none else knownMembers? names [] members
  | .array items =>
      if budget ≤ 1 ∨ names.length < items.length then none else some (names.zip items)
  | _ => none

def string? : Written → Option String
  | .string value? => value?
  | _ => none

def bool? : Written → Option Bool
  | .bool b => some b
  | _ => none

def int? : Written → Option Int
  | .number (some (.int n)) => some n
  | _ => none

def natBelow? (bound : Nat) (written : Written) : Option Nat := do
  let n ← written.int?
  if 0 ≤ n ∧ n < bound then some n.toNat else none

def int64? (written : Written) : Option Int := do
  let n ← written.int?
  if -2 ^ 63 ≤ n ∧ n < 2 ^ 63 then some n else none

def strings? (budget : Nat) : Written → Option (List String)
  | .array items => if budget ≤ 1 then none else items.mapM string?
  | _ => none

/-- Reads null as nothing. -/
def nullable? (read : Written → Option α) : Written → Option (Option α)
  | .null => some none
  | written => (read written).map some

end Json.Written

namespace Record

def required? (record : Record) (name : String) (read : Json.Written → Option α) :
    Option α := do
  read (← record.lookup name)

def defaulted? (record : Record) (name : String) (default : α)
    (read : Json.Written → Option α) : Option α :=
  match record.lookup name with
  | some written => read written
  | none => some default

/-- A member that may be null or missing. -/
def optional? (record : Record) (name : String) (read : Json.Written → Option α) :
    Option (Option α) :=
  record.defaulted? name none (Json.Written.nullable? read)

end Record

end ChainClient

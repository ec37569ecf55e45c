import ChainClient.Url.Address
import ChainClient.Url.Name

/-! Absolute URLs, as far as their scheme and whether they are well-formed. -/

namespace ChainClient.Url

/-! Schemes whose URLs have a host, and in which a backslash
counts as a slash, are special. -/

inductive SchemeKind where
  | special
  | file
  | other
  deriving DecidableEq, Repr

def schemeKind (scheme : String) : SchemeKind :=
  if scheme ∈ ["http", "https", "ws", "wss", "ftp"] then .special
  else if scheme = "file" then .file
  else .other

def isSlash (kind : SchemeKind) (c : Char) : Bool :=
  c = '/' || (c = '\\' && kind ≠ .other)

/-- What ends the part of a URL that names the host. -/
def endsAuthority (kind : SchemeKind) (c : Char) : Bool :=
  isSlash kind c || c = '?' || c = '#'

/-- Controls and spaces around a URL do not count, nor do tabs and line ends within it. -/
def clean (text : List Char) : List Char :=
  let isOuter (c : Char) : Bool := c.toNat ≤ 32
  let inner := ((text.dropWhile isOuter).reverse.dropWhile isOuter).reverse
  inner.filter fun c => c ≠ '\t' ∧ c ≠ '\n' ∧ c ≠ '\r'

def isSchemeChar (c : Char) : Bool :=
  c.isAlphanum || c = '+' || c = '-' || c = '.'

/-- The scheme in lower case, and what follows its colon. -/
def splitScheme? (text : List Char) : Option (String × List Char) :=
  let scheme := text.takeWhile isSchemeChar
  match scheme, text.dropWhile isSchemeChar with
  | first :: _, ':' :: rest =>
      if first.isAlpha then some (String.ofList (scheme.map lower), rest) else none
  | _, _ => none

/-! Hosts. -/

def checkIpv6 (text : List Char) : Except UrlError Unit :=
  if text.getLast? = some ']' ∧ isIpv6 text.dropLast then .ok () else .error .invalidIpv6

def checkName (host : List Char) : Except UrlError Unit := do
  let name ← name (String.ofList host)
  if endsInNumber name ∧ !isIpv4 name then .error .invalidIpv4 else .ok ()

/-- Hosts of special schemes are names or addresses. -/
def checkHost (host : List Char) : Except UrlError Unit :=
  match host with
  | '[' :: rest => checkIpv6 rest
  | _ => checkName host

def isOpaqueForbidden (c : Char) : Bool :=
  c.toNat ∈ [0, 9, 10, 13, 32] ||
    c ∈ ['#', '/', ':', '<', '>', '?', '@', '[', '\\', ']', '^', '|']

/-- Hosts of other schemes are kept as they are. -/
def checkOpaque (host : List Char) : Except UrlError Unit :=
  match host with
  | '[' :: rest => checkIpv6 rest
  | _ => if host.any isOpaqueForbidden then .error .invalidCharacter else .ok ()

/-- A port below `2 ^ 16`.  A backslash ends it in every scheme. -/
def checkPort (port : Nat) : List Char → Except UrlError Unit
  | [] => .ok ()
  | c :: rest =>
      if c.isDigit then
        let port := 10 * port + (c.toNat - 48)
        if port < 2 ^ 16 then checkPort port rest else .error .invalidPort
      else if c ∈ ['/', '\\', '?', '#'] then .ok ()
      else .error .invalidPort

/-- Splits a host off the front.  A colon inside brackets does not end it. -/
def splitHost (kind : SchemeKind) (bracketed : Bool) : List Char → List Char × List Char
  | [] => ([], [])
  | c :: rest =>
      if endsAuthority kind c ∨ (c = ':' ∧ !bracketed) then ([], c :: rest)
      else
        let bracketed := if c = '[' then true else if c = ']' then false else bracketed
        let (host, rest) := splitHost kind bracketed rest
        (c :: host, rest)

/-- What stands before and after the last at sign. -/
def splitAtLastAt? : List Char → Option (List Char × List Char)
  | [] => none
  | c :: rest =>
      match splitAtLastAt? rest with
      | some (front, back) => some (c :: front, back)
      | none => if c = '@' then some ([], rest) else none

/-- Drops a user name and a password, and tells whether there was either. -/
def dropUser (kind : SchemeKind) (text : List Char) : Except UrlError (Bool × List Char) :=
  let authority := text.takeWhile fun c => !endsAuthority kind c
  let tail := text.dropWhile fun c => !endsAuthority kind c
  match splitAtLastAt? authority with
  | none => .ok (false, text)
  | some (user, host) =>
      if user = [] ∧ host = [] ∧ tail ≠ [] then .error .emptyHost
      else .ok (user ≠ [] && user ≠ [':'], host ++ tail)

/-- Checks what follows the slashes before the host. -/
def checkAuthority (kind : SchemeKind) (text : List Char) : Except UrlError Unit := do
  let (hasUser, text) ← dropUser kind text
  let (host, rest) := splitHost kind false text
  if host = [] then
    if kind = .special ∨ rest.head? = some ':' ∨ hasUser then .error .emptyHost else .ok ()
  else
    if kind = .special then checkHost host else checkOpaque host
    match rest with
    | ':' :: port => checkPort 0 port
    | _ => .ok ()

def isDriveLetter : List Char → Bool
  | [letter, mark] => letter.isAlpha && (mark = ':' || mark = '|')
  | _ => false

/-- Files may name a host after two slashes. -/
def checkFile : List Char → Except UrlError Unit
  | first :: second :: rest =>
      let host := rest.takeWhile fun c => !endsAuthority .file c
      if isSlash .file first ∧ isSlash .file second ∧ host ≠ [] ∧ !isDriveLetter host then
        checkHost host
      else .ok ()
  | _ => .ok ()

/-- The scheme of a well-formed URL. -/
def scheme (text : String) : Except UrlError String := do
  match splitScheme? (clean text.toList) with
  | none => .error .noScheme
  | some (scheme, rest) =>
      match schemeKind scheme with
      | .special => checkAuthority .special (rest.dropWhile (isSlash .special))
      | .file => checkFile rest
      | .other =>
          match rest with
          | '/' :: '/' :: rest => checkAuthority .other rest
          | _ => .ok ()
      .ok scheme

end ChainClient.Url

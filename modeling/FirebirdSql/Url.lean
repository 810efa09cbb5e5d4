import FirebirdSql.Text.Blank
import FirebirdSql.Text.Percent
import FirebirdSql.Url.Fault
import FirebirdSql.Url.Ipv6

/-!
Uniform resource locators, read as the living standard of the web has it: a scheme, credentials, a host with a port, a
path without dot segments, and a query. What must not stand in a part is percent-encoded there.
-/

namespace FirebirdSql

structure Url where
  scheme : String
  username : String
  password : Option String
  host : Option String
  port : Option Nat
  path : String
  query : Option String
  deriving DecidableEq, Repr

namespace Url

/-- What a scheme changes in the reading of the rest. -/
inductive SchemeKind where
  | plain
  | special
  | file
  deriving DecidableEq, Repr

def SchemeKind.ofName (scheme : String) : SchemeKind :=
  if scheme = "file" then .file
  else if ["http", "https", "ws", "wss", "ftp"].contains scheme then .special
  else .plain

/-- Special schemes take a backslash for a slash. -/
def SchemeKind.isSlash (k : SchemeKind) (c : Char) : Bool := c == '/' || (c == '\\' && k != .plain)

def isControl (c : Char) : Bool := decide (c.toNat < 32) || c.toNat == 127

def escapesInPath (c : Char) : Bool :=
  isControl c || [' ', '"', '<', '>', '`', '#', '?', '\x7b', '\x7d'].contains c

def escapesInCredentials (c : Char) : Bool :=
  escapesInPath c || ['/', ':', ';', '=', '@', '[', '\\', ']', '^', '|'].contains c

def escapesInQuery (c : Char) : Bool := isControl c || [' ', '"', '#', '<', '>'].contains c

/-- The text without controls and spaces at its ends, and without line ends and tabs. -/
def clean (s : List Char) : List Char :=
  let isEdge (c : Char) : Bool := decide (c.toNat ≤ 32)
  let trimmed := ((s.dropWhile isEdge).reverse.dropWhile isEdge).reverse
  trimmed.filter fun c => c != '\t' && c != '\n' && c != '\r'

def isSchemeChar (c : Char) : Bool := c.isAlphanum || c == '+' || c == '-' || c == '.'

/-- The scheme in lower case, and what follows its colon. -/
def splitScheme? (s : List Char) : Option (List Char × List Char) :=
  if s.head?.any Char.isAlpha then
    match s.dropWhile isSchemeChar with
    | ':' :: rest => some ((s.takeWhile isSchemeChar).map Char.toLower, rest)
    | _ => none
  else none

/-- The parts before and after the last `c`. -/
def splitLast? (c : Char) (s : List Char) : Option (List Char × List Char) :=
  if s.contains c then
    some ((s.reverse.dropWhile (· != c)).drop 1 |>.reverse, (s.reverse.takeWhile (· != c)).reverse)
  else none

/-- The parts before and after the first `c`, without it. -/
def splitAtFirst (c : Char) (s : List Char) : List Char × List Char :=
  (s.takeWhile (· != c), (s.dropWhile (· != c)).drop 1)

/-- Where the authority, or the host in it, ends. -/
def endsAuthority (k : SchemeKind) (c : Char) : Bool := k.isSlash c || c == '?' || c == '#'

structure Credentials where
  username : List Char
  password : Option (List Char)

def Credentials.isPresent (c : Credentials) : Bool := !c.username.isEmpty || c.password.isSome

/-- A name and, after the first colon, a password; an empty password is none. -/
def Credentials.read (s : List Char) : Credentials :=
  let (username, password) := splitAtFirst ':' s
  let encode := Text.Percent.encode escapesInCredentials
  ⟨encode username, if password.isEmpty then none else some (encode password)⟩

/-- The length of the host: up to a colon that is not between brackets. -/
def hostLength (bracketed : Bool) : List Char → Nat
  | [] => 0
  | c :: rest =>
    if c = ':' ∧ !bracketed then 0
    else 1 + hostLength (if c = '[' then true else if c = ']' then false else bracketed) rest

def isForbiddenInHost (c : Char) : Bool :=
  ['\x00', '\t', '\n', '\r', ' ', '#', '/', ':', '<', '>', '?', '@', '[', '\\', ']', '^', '|'].contains c

/-- A host between brackets is an address; another one is kept as it is, or is a domain name of a special scheme. -/
def readHost (k : SchemeKind) (s : List Char) : Except Fault (List Char) :=
  if s.head? = some '[' then
    if s.getLast? = some ']' then
      match Ipv6.read? (s.drop 1).dropLast with
      | some pieces => .ok ('[' :: Ipv6.write pieces ++ [']'])
      | none => .error .invalidIpv6
    else .error .invalidIpv6
  else if k = .plain then
    if s.any isForbiddenInHost then .error .invalidDomainCharacter
    else .ok (Text.Percent.encode isControl s)
  else
    let name := Text.Utf8.decodeLossy (Text.Percent.decode s)
    if name.isEmpty then .error .emptyHost
    else if name.any (fun c => isForbiddenInHost c || isControl c || c == '%') then
      .error .invalidInternationalName
    else .ok (name.map Char.toLower)

/-- The digits of a port up to the end of the authority, and what follows it. -/
def readPort (port : Option Nat) : List Char → Except Fault (Option Nat × List Char)
  | [] => .ok (port, [])
  | c :: rest =>
    match Text.digitValue? c with
    | some d =>
      let n := 10 * port.getD 0 + d
      if 65535 < n then .error .invalidPort else readPort (some n) rest
    | none =>
      if c = '/' ∨ c = '\\' ∨ c = '?' ∨ c = '#' then .ok (port, c :: rest) else .error .invalidPort

def isDot (s : List Char) : Bool := s == ['.'] || s == ['%', '2', 'e'] || s == ['%', '2', 'E']

def isDoubleDot (s : List Char) : Bool :=
  (s.head? == some '.' && isDot (s.drop 1)) || (isDot (s.take 3) && isDot (s.drop 3))

/-- A letter and a colon or bar, at the end of the segment or before a backslash. -/
def isDrive : List Char → Bool
  | [a, b] => a.isAlpha && (b == ':' || b == '|')
  | a :: b :: c :: _ => a.isAlpha && (b == ':' || b == '|') && c == '\\'
  | _ => false

/-- The segments of a path that a double dot leaves: all but the last, which stays if it is a drive. -/
def leaveSegment : List (List Char) → List (List Char)
  | [] => []
  | segment :: outer => if isDrive segment then segment :: outer else outer

/-- Resolves the dot segments; `outer` holds the segments so far, the last one first. The last segment has no slash
after it. -/
def resolveFrom (outer : List (List Char)) : List (List Char) → List (List Char)
  | [] => outer.reverse ++ [[]]
  | [last] =>
    if isDoubleDot last then (leaveSegment outer).reverse ++ [[]]
    else if isDot last then outer.reverse ++ [[]]
    else outer.reverse ++ [last]
  | segment :: rest =>
    if isDoubleDot segment then resolveFrom (leaveSegment outer) rest
    else if isDot segment then resolveFrom outer rest
    else resolveFrom (segment :: outer) rest

/-- A path after its first slash. -/
def rootedPath (k : SchemeKind) (s : List Char) : List Char :=
  let s := s.map fun c => if k.isSlash c then '/' else c
  let segments := (Text.splitAt '/' s).map (Text.Percent.encode escapesInPath)
  '/' :: Text.joinWith ['/'] (resolveFrom [] segments)

/-- The path after an authority. -/
def pathAfterAuthority (k : SchemeKind) (s : List Char) : List Char :=
  match s with
  | [] => if k = .plain then [] else ['/']
  | c :: rest => if k.isSlash c then rootedPath k rest else rootedPath k s

/-- The path of a URL without an authority; without a slash it is not divided. -/
def pathWithoutAuthority (k : SchemeKind) (s : List Char) : List Char :=
  match s with
  | '/' :: rest => rootedPath k rest
  | _ => Text.Percent.encode isControl s

/-- The path and the query of what follows the authority. A mark of a part of the document ends both. -/
def splitQuery (s : List Char) : List Char × Option (List Char) :=
  let s := s.takeWhile (· != '#')
  if s.contains '?' then
    let (path, query) := splitAtFirst '?' s
    (path, some (Text.Percent.encode escapesInQuery query))
  else (s, none)

/-- Reads what follows the double slash. -/
def readAuthority (scheme : List Char) (k : SchemeKind) (s : List Char) : Except Fault Url := do
  let authority := s.takeWhile (!endsAuthority k ·)
  let after := s.dropWhile (!endsAuthority k ·)
  let (credentials, rest) ← match splitLast? '@' authority with
    | none => pure (⟨[], none⟩, authority)
    | some ([], rest) =>
      if rest.isEmpty ∧ !after.isEmpty then .error Fault.emptyHost else pure (⟨[], none⟩, rest)
    | some (userinfo, rest) => pure (Credentials.read userinfo, rest)
  let length := if k = .file then rest.length else hostLength false rest
  let hostText := rest.take length
  let afterHost := rest.drop length
  if hostText.isEmpty ∧ (k = .special ∨ !afterHost.isEmpty ∨ credentials.isPresent) then .error Fault.emptyHost
  let host ← if hostText.isEmpty then pure [] else readHost k hostText
  let (port, remaining) ← match afterHost with
    | ':' :: digits => readPort none (digits ++ after)
    | _ => pure (none, after)
  let (path, query) := splitQuery remaining
  return {
    scheme := .ofList scheme
    username := .ofList credentials.username
    password := credentials.password.map String.ofList
    host := if host.isEmpty then none else some (.ofList host)
    port := port
    path := .ofList (pathAfterAuthority k path)
    query := query.map String.ofList }

/-- Reads an absolute URL. -/
def read (text : String) : Except Fault Url :=
  match splitScheme? (clean text.toList) with
  | none => .error .relativeWithoutBase
  | some (scheme, rest) =>
    match SchemeKind.ofName (.ofList scheme), rest with
    | .special, rest => readAuthority scheme .special (rest.dropWhile (SchemeKind.special.isSlash ·))
    | k, '/' :: '/' :: rest => readAuthority scheme k rest
    | k, rest =>
      let (path, query) := splitQuery rest
      .ok {
        scheme := .ofList scheme
        username := ""
        password := none
        host := none
        port := none
        path := .ofList (pathWithoutAuthority k path)
        query := query.map String.ofList }

/-- The pairs of a query: names and values, with a plus sign for a space. -/
def pairs (query : String) : List (String × String) :=
  let decode (s : List Char) : String := Text.Percent.decodeText (s.map fun c => if c = '+' then ' ' else c)
  ((Text.splitAt '&' query.toList).filter (!·.isEmpty)).map fun pair =>
    let (name, value) := splitAtFirst '=' pair
    (decode name, decode value)

end Url

end FirebirdSql

import Rfs.Url.Encode

/-!
# Url/Parse — `url::Url::parse`, for URLs of a non-special scheme

`get_connection_info` parses its store URL with the `url` crate, which implements the WHATWG
basic URL parser.  A `zdb` URL has a *non-special* scheme, and that is the branch modelled here,
one function per state of the parser: scheme, authority (userinfo up to the last `@`, split at
its first `:`), host (up to a `:` outside brackets, an opaque host), port (up to a `\`, as the
crate reads it in every scheme), and the path state with its dot segments.  The query and the
fragment end the path; nothing reads them, so they are dropped.

Outside the model: the special schemes (`http`, `https`, `ws`, `wss`, `ftp`, `file`), which take
the parser's other branch and are never routed to the zdb store
(`ParseError.specialSchemeNotModelled`), and IPv6 literals, whose text between the brackets is
kept as written instead of being parsed and re-serialised.

The parse works on the character list; `Url` keeps the components the accessors of `zdb.rs`
read — `username()`, `password()`, `host()`, `port()`, `path()` and `path_segments()`.
-/

namespace Rfs

/-! ## The parsed URL -/

/-- `url::ParseError`, the variants this branch of the parser returns. -/
inductive Url.ParseError where
  | emptyHost
  | invalidPort
  | invalidIpv6Address
  | invalidDomainCharacter
  | relativeUrlWithoutBase
  /-- A special scheme: the parser's other branch, not modelled. -/
  | specialSchemeNotModelled
deriving DecidableEq, Repr

/-- `url::Host` of a non-special URL: an opaque host, or an IPv6 literal (kept as written). -/
inductive Url.Host where
  | domain (s : String)
  | ipv6 (literal : String)
deriving DecidableEq, Repr

/-- `Display` for a host. -/
def Url.Host.toString : Url.Host → String
  | .domain s => s
  | .ipv6 a => "[" ++ a ++ "]"

/-- A URL's path: a list of segments, or the single string of a URL that cannot be a base. -/
inductive Url.Path where
  | cannotBeABase (s : String)
  | segments (ss : List String)
deriving DecidableEq, Repr

/-- The components of a parsed URL that `zdb.rs` reads; `host` is `none` for an absent or empty
host (`HostInternal::None`), and `password` is empty when the URL has none. -/
structure Url where
  scheme : String
  username : String
  password : String
  host : Option Url.Host
  port : Option UInt16
  path : Url.Path
deriving DecidableEq, Repr

/-- `Url::password` — `None` for an empty password, which the serialisation drops. -/
def Url.password? (u : Url) : Option String := if u.password.isEmpty then none else some u.password

/-- `Url::path` — the serialised path: each segment after a `/`. -/
def Url.pathStr (u : Url) : String :=
  match u.path with
  | .cannotBeABase s => s
  | .segments ss => String.mk (ss.flatMap fun s => '/' :: s.data)

/-- `Url::path_segments` — `None` unless the serialised path starts with `/`. -/
def Url.pathSegments (u : Url) : Option (List String) :=
  match u.path with
  | .segments (s :: ss) => some (s :: ss)
  | _ => none

namespace Url

/-! ## Scheme -/

/-- A C0 control or a space: trimmed from both ends of the input. -/
def isC0ControlOrSpace (c : Char) : Bool := c.toNat ≤ 0x20

/-- A tab or a newline: removed from the whole input. -/
def isTabOrNewline (c : Char) : Bool := c = '\t' || c = '\n' || c = '\r'

/-- The input as the parser reads it. -/
def preprocess (s : String) : List Char :=
  (((s.data.dropWhile isC0ControlOrSpace).reverse.dropWhile isC0ControlOrSpace).reverse).filter
    (!isTabOrNewline ·)

/-- A character the scheme state accepts. -/
def isSchemeChar (c : Char) : Bool := c.isAlphanum || c = '+' || c = '-' || c = '.'

/-- Scheme start and scheme state: an ASCII letter, scheme characters, then `:`; the scheme is
lower-cased.  Anything else is a relative URL, which needs a base. -/
def parseScheme (cs : List Char) : Option (String × List Char) :=
  match cs.span isSchemeChar with
  | (c :: sch, ':' :: rest) =>
    if c.isAlpha then some (String.mk ((c :: sch).map Char.toLower), rest) else none
  | _ => none

/-- The schemes with their own branch of the parser. -/
def isSpecial (scheme : String) : Bool :=
  scheme ∈ ["ftp", "file", "http", "https", "ws", "wss"]

/-! ## Authority, host and port -/

/-- A character that ends the authority of a non-special URL. -/
def isAuthorityEnd (c : Char) : Bool := c = '/' || c = '?' || c = '#'

/-- The authority split at its last `@`: the userinfo before it, the host and port after. -/
def splitAtLastAt : List Char → Option (List Char × List Char)
  | [] => none
  | c :: cs =>
    match splitAtLastAt cs with
    | some (ui, hp) => some (c :: ui, hp)
    | none => if c = '@' then some ([], cs) else none

/-- Host state: the host runs to the first `:` outside brackets; the port follows it. -/
def splitHostPort (inBrackets : Bool) : List Char → List Char × Option (List Char)
  | [] => ([], none)
  | c :: cs =>
    if c = ':' && !inBrackets then ([], some cs)
    else
      let r := splitHostPort (if c = '[' then true else if c = ']' then false else inBrackets) cs
      (c :: r.1, r.2)

/-- A code point an opaque host may not hold. -/
def isForbiddenHostCodePoint (c : Char) : Bool :=
  c.toNat = 0 || c = '\t' || c = '\n' || c = '\r' || c = ' ' || c = '#' || c = '/' || c = ':' ||
    c = '<' || c = '>' || c = '?' || c = '@' || c = '[' || c.toNat = 0x5C || c = ']' || c = '^' ||
    c = '|'

/-- The opaque-host parser; an empty host is no host. -/
def parseOpaqueHost (cs : List Char) : Except ParseError (Option Host) :=
  match cs with
  | [] => .ok none
  | '[' :: rest =>
    if rest.getLast? = some ']' then .ok (some (.ipv6 (String.mk rest.dropLast)))
    else .error .invalidIpv6Address
  | _ =>
    if cs.any isForbiddenHostCodePoint then .error .invalidDomainCharacter
    else .ok (some (.domain (String.mk (percentEncode AsciiSet.controls cs))))

/-- The value of a string of decimal digits. -/
def decimalValue (ds : List Char) : Nat := ds.foldl (fun n d => 10 * n + (d.toNat - 0x30)) 0

/-- Port state, on the text after the host's `:`: digits, at most `65535`, up to a `\` — which
the `url` crate takes for the end of a port in every scheme — or the end of the authority; no
digits is no port (a zdb URL has no default port to drop).  What follows the port is left to
the path. -/
def parsePort : Option (List Char) → Except ParseError (Option UInt16 × List Char)
  | none => .ok (none, [])
  | some cs =>
    let ds := cs.takeWhile (· != '\\')
    if ds.isEmpty then .ok (none, cs.dropWhile (· != '\\'))
    else if ds.all Char.isDigit && decimalValue ds ≤ 65535 then
      .ok (some (UInt16.ofNat (decimalValue ds)), cs.dropWhile (· != '\\'))
    else .error .invalidPort

/-- The userinfo split at its first `:`, each side encoded with the userinfo set. -/
def splitUserinfo (ui : List Char) : List Char × List Char :=
  match ui.span (· != ':') with
  | (user, ':' :: pass) => (percentEncode AsciiSet.userinfo user, percentEncode AsciiSet.userinfo pass)
  | (user, _) => (percentEncode AsciiSet.userinfo user, [])

/-! ## Path -/

/-- `.` or `%2e`, in any case. -/
def isSingleDot (buf : List Char) : Bool := buf.map Char.toLower ∈ [['.'], ['%', '2', 'e']]

/-- `..` and its spellings with `%2e`, in any case. -/
def isDoubleDot (buf : List Char) : Bool :=
  buf.map Char.toLower ∈ [['.', '.'], ['.', '%', '2', 'e'], ['%', '2', 'e', '.'],
    ['%', '2', 'e', '%', '2', 'e']]

/-- The end of a segment of the path state: a double-dot segment removes the last segment, a
single-dot segment adds nothing, and either adds an empty segment at the end of the path. -/
def flushSegment (path : List String) (buf : List Char) (atEnd : Bool) : List String :=
  if isDoubleDot buf then path.dropLast ++ (if atEnd then [""] else [])
  else if isSingleDot buf then path ++ (if atEnd then [""] else [])
  else path ++ [String.mk buf]

/-- **The path state** — segments end at `/`, the path at `?`, `#` or the end of the input. -/
def pathState (path : List String) (buf : List Char) : List Char → List String
  | [] => flushSegment path buf true
  | c :: cs =>
    if c = '/' then pathState (flushSegment path buf false) [] cs
    else if c = '?' || c = '#' then flushSegment path buf true
    else pathState path (buf ++ percentEncodeChar AsciiSet.path c) cs

/-- Path start state, after an authority: no path at the end of the input or before a query or a
fragment; otherwise the path state, past a leading `/`. -/
def pathStart : List Char → List String
  | [] => []
  | '/' :: cs => pathState [] [] cs
  | '?' :: _ => []
  | '#' :: _ => []
  | cs => pathState [] [] cs

/-! ## The parser -/

/-- **Authority state** and what follows it.  An empty host is rejected in three places, in the
`url` crate's order: an `@` that opens the authority with the path right after it; a port with no
host before it; and a userinfo that wrote a user or a password, with no host after it — a
userinfo of a lone `:` writes neither, and leaves a URL with no host. -/
def parseAuthority (scheme : String) (cs : List Char) : Except ParseError Url := do
  let auth := cs.takeWhile (!isAuthorityEnd ·)
  let rest := cs.dropWhile (!isAuthorityEnd ·)
  let (userinfo, hostport) : Option (List Char) × List Char :=
    match splitAtLastAt auth with
    | some (ui, hp) => (some ui, hp)
    | none => (none, auth)
  if userinfo == some [] && hostport.isEmpty && !rest.isEmpty then throw .emptyHost
  let (username, password) := (userinfo.map splitUserinfo).getD ([], [])
  let (hostStr, portStr) := splitHostPort false hostport
  if portStr.isSome && hostStr.isEmpty then throw .emptyHost
  let host ← parseOpaqueHost hostStr
  let (port, afterPort) ← parsePort portStr
  if host.isNone && !(username.isEmpty && password.isEmpty) then throw .emptyHost
  pure { scheme, username := String.mk username, password := String.mk password, host, port
         path := .segments (pathStart (afterPort ++ rest)) }

/-- After the scheme of a non-special URL: `//` and an authority, a path, or a path that cannot
be a base. -/
def parseNonSpecial (scheme : String) : List Char → Except ParseError Url
  | '/' :: '/' :: rest => parseAuthority scheme rest
  | '/' :: rest =>
    .ok ⟨scheme, "", "", none, none, .segments (pathState [] [] rest)⟩
  | rest =>
    .ok ⟨scheme, "", "", none, none, .cannotBeABase (String.mk (percentEncode AsciiSet.controls
      (rest.takeWhile fun c => c != '?' && c != '#')))⟩

/-- **`Url::parse`**, without a base. -/
def parse (s : String) : Except ParseError Url :=
  match parseScheme (preprocess s) with
  | none => .error .relativeUrlWithoutBase
  | some (scheme, rest) =>
    if isSpecial scheme then .error .specialSchemeNotModelled else parseNonSpecial scheme rest

end Url

end Rfs

import EdmxGen.Http.Encoding
import EdmxGen.Http.Url
import EdmxGen.Settings.Basic

/-!
# Requests for metadata

The request for an address, and the server that it goes to. Headers of the options are sent as they
are, with their names in lower case, and those that every request has are added where they are
missing. Credentials in the address come first, then those of the options; all are sent. A proxy is
sent the whole address instead of its path, or asked for a tunnel if the request is to be encrypted.
-/

namespace EdmxGen.Http

open Text

structure Peer where
  host : String
  port : Nat
  deriving DecidableEq, Repr

/-- A request without a body: what it asks for, and its headers. -/
structure Request where
  target : List Char
  headers : List (String × List Char)
  deriving DecidableEq, Repr

namespace Request

def line (r : Request) : List Char := "GET ".toList ++ r.target ++ " HTTP/1.1".toList

/-- The headers, each on a line, in the order of the lines. -/
def headerLines (r : Request) : List String :=
  (r.headers.map fun h => h.1 ++ ": " ++ String.ofList h.2).mergeSort (· ≤ ·)

end Request

/-! ## Headers -/

/-- The character may stand in the value of a header. -/
def isValueChar (c : Char) : Bool := c == '\t' || (0x20 ≤ c.toNat && c.toNat != 0x7F)

/-- A header as it is sent, unless its name or its value cannot be. -/
def header? (name value : String) : Option (String × List Char) :=
  if !name.isEmpty && name.toList.all isToken && value.toList.all isValueChar then
    some (String.ofList (lowerAscii name.toList), value.toList)
  else none

/-- The value of a header with a name and a secret. -/
def basicCredentials (user pass : List UInt8) : List Char :=
  "Basic ".toList ++ Base64.encode (user ++ Utf8.encode [':'] ++ pass)

/-- The header with the credentials of the options; a token counts before a name. -/
def credentials? (auth : Auth) : Option (List (String × List Char)) :=
  match auth.bearer, auth.user with
  | some token, _ => (header? "authorization" ("Bearer " ++ token)).map fun h => [h]
  | none, some user =>
    some [("authorization",
      basicCredentials (Utf8.encode user.toList) (Utf8.encode (auth.pass.getD "").toList))]
  | none, none => some []

/-- The header with the credentials in an address, as long as they are text. -/
def urlCredentials (u : Url) : List (String × List Char) :=
  let user := percentDecode u.user
  let pass := (u.pass.map percentDecode).filter fun p => (Utf8.decode p).toOption.isSome
  if (user.isEmpty && pass.isNone) || (Utf8.decode user).toOption.isNone then []
  else [("authorization", basicCredentials user (pass.getD []))]

/-- The headers with one more unless its name is there already. -/
def addMissing (name : String) (value : List Char) (headers : List (String × List Char)) :
    List (String × List Char) :=
  if headers.any fun h => h.1 == name then headers else headers ++ [(name, value)]

/-- The name under which the program presents itself. -/
def agent : String := "odatatools/0.1.0"

/-- The headers of a request for an address; without a body there is no encoding of it to tell. -/
def headersFor? (u : Url) (o : RequestOptions) : Option (List (String × List Char)) := do
  let given ← o.headers.entries.mapM fun e => header? e.1 e.2
  let auth ← credentials? (o.auth.getD {})
  let headers := (urlCredentials u ++ given ++ auth).filter fun h => h.1 != "transfer-encoding"
  pure (addMissing "host" u.authority
    (addMissing "user-agent" agent.toList (addMissing "accept" ['*', '/', '*'] headers)))

/-! ## Proxies -/

/-- The address of a proxy, with the scheme for the web if it has none of its own or no host. -/
def proxyUrl? (text : String) : Option Url :=
  let assumed : Option Url := (Url.read ("http://" ++ text)).toOption
  match Url.read text with
  | .ok u => if u.host.isSome then some u else assumed
  | .error .relative => assumed
  | .error .malformed => none

/-- The schemes of requests and of the proxies that pass them on. -/
def webSchemes : List String := ["http", "https"]

/-- The schemes of proxies that cannot be reached. -/
def unreachableSchemes : List String := ["socks4", "socks4a", "socks5", "socks5h"]

def proxyCredentials (u : Url) : List (String × List Char) :=
  if u.user.isEmpty && u.pass.isNone then []
  else
    let text (cs : List Char) : List UInt8 := Utf8.encode (Utf8.decodeLossy (percentDecode cs))
    [("proxy-authorization", basicCredentials (text u.user) (((u.pass).map text).getD []))]

/-! ## The whole request -/

def peerOf (u : Url) : Peer :=
  ⟨u.host.getD "", u.port.getD ((Url.standardPort? u.scheme).getD 80)⟩

/-- A server that a proxy connects to, and the credentials that the proxy is shown. -/
structure Tunnel where
  peer : Peer
  credentials : List (String × List Char)
  deriving DecidableEq, Repr

/-- A request and its way: the server or the proxy it goes to, whether the connection there is
encrypted, and the tunnel behind it, in which everything is. -/
structure Sending where
  peer : Peer
  secure : Bool
  tunnel : Option Tunnel
  request : Request
  deriving DecidableEq, Repr

/-- Part of the way is encrypted. -/
def Sending.isEncrypted (s : Sending) : Bool := s.secure || s.tunnel.isSome

def isSecure (u : Url) : Bool := u.scheme == "https"

/-- The request for an address that is not sent through a proxy. -/
def direct (u : Url) (headers : List (String × List Char)) : Sending :=
  ⟨peerOf u, isSecure u, none, ⟨u.pathAndQuery, headers⟩⟩

/-- The request for an address that a proxy passes on. -/
def viaProxy (proxy u : Url) (headers : List (String × List Char)) : Sending :=
  let known := headers.any fun h => h.1 == "proxy-authorization"
  ⟨peerOf proxy, isSecure proxy, none,
    ⟨u.write, headers ++ if known then [] else proxyCredentials proxy⟩⟩

/-- The request for an address that only its server can read. -/
def throughTunnel (proxy u : Url) (headers : List (String × List Char)) : Sending :=
  ⟨peerOf proxy, isSecure proxy, some ⟨peerOf u, proxyCredentials proxy⟩,
    ⟨u.pathAndQuery, headers⟩⟩

/-- The request for an address, if one can be made. -/
def prepare? (address : String) (o : RequestOptions) : Option Sending := do
  let proxy ←
    match o.proxy with
    | none => pure none
    | some text => (proxyUrl? text).map some
  let u ← (Url.read address).toOption
  let headers ← headersFor? u o
  if !webSchemes.contains u.scheme then none
  else
    match proxy with
    | none => pure (direct u headers)
    | some p =>
      if webSchemes.contains p.scheme then
        pure (if isSecure u then throughTunnel p u headers else viaProxy p u headers)
      else if unreachableSchemes.contains p.scheme then none
      else pure (direct u headers)

end EdmxGen.Http

import PeerRoster.Service
import PeerRoster.Store.Table
import PeerRoster.Token

/-! The server: its settings, the requests that it gets, the responses that it gives, and its one
route. A request is checked in this order: the settings, the token, the query string, the
repository, and then the service's own checks. -/
namespace PeerRoster

structure Config where
  address : String
  port : UInt16
  databaseUrl : String
  /-- The key that access tokens are signed with. -/
  secret : String
  /-- The most rows that a page may hold, if there is a bound. -/
  maxPageSize : Option UInt64
  deriving DecidableEq

namespace Config

def fields : List String := ["address", "port", "database_url", "secret", "max_page_size"]

/-- The values of settings under the names of their fields. -/
def record (c : Config) : List (String × Json) :=
  fields.zip [.str (.text c.address), .int c.port.toNat, .str (.text c.databaseUrl),
    .str (.text c.secret), .ofNullable .ofUInt64 c.maxPageSize]

def ofMembers? (ms : Json.Members) : Option Config :=
  if Json.wellNamed fields ms then do
    let address ← Json.required? Json.text? "address" ms
    let port ← Json.required? Json.uint16? "port" ms
    let databaseUrl ← Json.required? Json.text? "database_url" ms
    let secret ← Json.required? Json.text? "secret" ms
    let maxPageSize ← Json.optional? Json.uint64? "max_page_size" ms
    return ⟨address, port, databaseUrl, secret, maxPageSize⟩
  else none

def ofItems? (address port databaseUrl secret : Json) (maxPageSize : Option UInt64) :
    Option Config := do
  let address ← address.text?
  let port ← port.uint16?
  let databaseUrl ← databaseUrl.text?
  let secret ← secret.text?
  return ⟨address, port, databaseUrl, secret, maxPageSize⟩

/-- Reads an object with the fields by name, or a list of the fields in order, the last of which
may be left out. -/
def ofJson? : Json → Option Config
  | .obj ms => ofMembers? ms
  | .arr [address, port, databaseUrl, secret] => ofItems? address port databaseUrl secret none
  | .arr [address, port, databaseUrl, secret, maxPageSize] =>
    (Json.nullable? Json.uint64? maxPageSize).bind (ofItems? address port databaseUrl secret)
  | _ => none

def ofText? : String → Option Config := Json.parse? ofJson?

end Config

namespace Target

def isSchemeChar (c : Char) : Bool := c.isAlphanum || c == '+' || c == '-' || c == '.'

/-- The characters that end an authority. -/
def isDelimiter (c : Char) : Bool := c == '/' || c == '?' || c == '#'

/-- A target from its path on; nothing, if it names an authority alone or the whole server. -/
def resource (cs : List Char) : List Char :=
  if cs.head? = some '/' then cs
  else match cs.dropWhile isSchemeChar with
    | ':' :: '/' :: '/' :: r => r.dropWhile (!isDelimiter ·)
    | _ => []

def withoutFragment (cs : List Char) : List Char := (resource cs).takeWhile (· != '#')

/-- The bytes that would read differently in a path if they were written as themselves. -/
def isReserved (b : UInt8) : Bool := b == 0x25 || b == 0x2B || b == 0x2F

def path (cs : List Char) : String :=
  Utf8.lenientText <|
    Percent.decode isReserved (Utf8.encode ((withoutFragment cs).takeWhile (· != '?')))

def query (cs : List Char) : String :=
  String.ofList (((withoutFragment cs).dropWhile (· != '?')).drop 1)

end Target

structure Request where
  method : String
  target : String
  /-- Names and values in the order in which they came. -/
  headers : List (String × String)

namespace Request

def path (r : Request) : String := Target.path r.target.toList

def query (r : Request) : String := Target.query r.target.toList

/-- The first value under a header name, which is given in lower case. -/
def header? (r : Request) (name : String) : Option String :=
  (r.headers.find? fun h => h.1.toLower == name).map (·.2)

def isVisible (c : Char) : Bool := (0x20 ≤ c.toNat && c.toNat ≤ 0x7E) || c == '\t'

def scheme : List Char := ['B', 'e', 'a', 'r', 'e', 'r', ' ']

/-- The token of an authorization value, if the value is legible, names the scheme and is not empty
after it. -/
def bearer? (value : String) : Option String :=
  let cs := value.toList
  let token := trim (cs.drop scheme.length)
  if cs.all isVisible && scheme.isPrefixOf cs && !token.isEmpty then some (String.ofList token)
  else none

def token? (r : Request) : Option String := (r.header? "authorization").bind bearer?

end Request

structure Response where
  status : Nat
  contentType : Option String
  body : String
  deriving DecidableEq

inductive ErrorCode
  | forbidden
  | invalidParam
  | missingToken
  | unknownToken
  | unknown
  deriving DecidableEq

namespace ErrorCode

def label : ErrorCode → String
  | .forbidden => "M_FORBIDDEN"
  | .invalidParam => "M_INVALID_PARAM"
  | .missingToken => "M_MISSING_TOKEN"
  | .unknownToken => "M_UNKNOWN_TOKEN"
  | .unknown => "M_UNKNOWN"

/-- The body that tells an error. -/
def body (c : ErrorCode) (message : String) : Json :=
  .record [("errcode", .str (.text c.label)), ("error", .str (.text message))]

end ErrorCode

namespace Response

def json (status : Nat) (v : Json) : Response := ⟨status, some "application/json", v.render⟩

def error (status : Nat) (c : ErrorCode) (message : String) : Response :=
  json status (c.body message)

def notFound : Response := ⟨404, none, ""⟩

def notConfigured : Response :=
  ⟨500, some "text/plain; charset=utf-8",
    "Requested application data is not configured correctly. " ++
      "View/enable debug logs for more details."⟩

end Response

namespace AuthError

def status : AuthError → Nat
  | .missingToken => 401
  | .unknownToken => 401
  | .missingConfig => 500
  | .signing => 500

def code : AuthError → ErrorCode
  | .missingToken => .missingToken
  | .unknownToken => .unknownToken
  | .missingConfig => .unknown
  | .signing => .unknown

def response (e : AuthError) : Response := .error e.status e.code e.message

end AuthError

namespace ServiceError

/-- An error of the storage is not told to the client. -/
def response : ServiceError → Response
  | .forbidden => .error 403 .forbidden (message .forbidden)
  | .form (.invalidParameter m) => .error 400 .invalidParam m
  | .form (.unrecognizedValue m) => .error 400 .unknown m
  | .store _ => .error 500 .unknown "Internal server error"

end ServiceError

/-- What the server is set up with, and its clock in seconds since the epoch. -/
structure App where
  config : Option Config
  hasRepository : Bool
  now : Nat

namespace App

def listingPath : String := "/_synapse/admin/v1/federation/destinations"

/-- Who asks, and under what settings. -/
def authenticate (app : App) (r : Request) : Except AuthError (Config × Claims) :=
  match app.config with
  | none => .error .missingConfig
  | some config => match r.token? with
    | none => .error .missingToken
    | some token => (Token.verify token config.secret app.now).map (config, ·)

/-- The response to a listing request of somebody known. -/
def list (app : App) (read : Query → Except StoreError Found) (config : Config) (claims : Claims)
    (query : String) : Response :=
  match Form.ofQueryString query with
  | .error e => .error 400 .invalidParam e.message
  | .ok form =>
    if app.hasRepository then
      match Service.list (m := Id) read claims.roles form config.maxPageSize with
      | .ok page => .json 200 page.toJson
      | .error e => e.response
    else .notConfigured

/-- The response to a request if the repository answers queries by `read`. -/
def serve (app : App) (read : Query → Except StoreError Found) (r : Request) : Response :=
  if r.method = "GET" ∧ r.path = listingPath then
    match app.authenticate r with
    | .error e => e.response
    | .ok (config, claims) => app.list read config claims r.query
  else .notFound

def respond (app : App) (s : Storage) (r : Request) : Response := app.serve s.list r

end App

end PeerRoster

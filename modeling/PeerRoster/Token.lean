import PeerRoster.Digest
import PeerRoster.Json.Reader

/-! Access tokens: a header and claims in base64url, with an authentication code over both. A token
is read only if the code is the one that the secret gives and the claims are current. The algorithm
of a header is HS256; of its other fields only the form counts, and a key inside it has only to be
of one of four kinds. -/
namespace PeerRoster

namespace Token

/-- A name is written as a text, or as the one member name of an object whose value is `empty`. -/
def name? (empty : Json → Bool) : Json → Option String
  | .str (.text s) => some s
  | .obj [(.text s, v)] => if empty v then some s else none
  | _ => none

def isNull : Json → Bool
  | .null => true
  | _ => false

def isNullOrNothing : Json → Bool
  | .null => true
  | .obj [] => true
  | _ => false

def optionalText (key : String) (ms : Json.Members) : Bool :=
  (Json.optional? Json.text? key ms).isSome

def optionalTexts (key : String) (ms : Json.Members) : Bool :=
  (Json.optional? (Json.list? Json.text?) key ms).isSome

def isText (key : String) (ms : Json.Members) : Bool :=
  (Json.required? Json.text? key ms).isSome

def isAmong (values : List String) (key : String) (ms : Json.Members) : Bool :=
  (Json.required? (name? isNull) key ms).any (values.contains ·)

/-- A kind of key: whether it lies on a curve, and the parameters that are texts. -/
structure KeyKind where
  name : String
  onCurve : Bool
  parameters : List String

namespace KeyKind

def all : List KeyKind :=
  [⟨"EC", true, ["x", "y"]⟩, ⟨"RSA", false, ["n", "e"]⟩, ⟨"oct", false, ["k"]⟩,
    ⟨"OKP", true, ["x"]⟩]

def curves : List String := ["P-256", "P-384", "P-521", "Ed25519"]

/-- The members that a key of this kind holds once each. Those of other kinds are ignored. -/
def fields (k : KeyKind) : List String :=
  "kty" :: (if k.onCurve then "crv" :: k.parameters else k.parameters)

def describes (k : KeyKind) (ms : Json.Members) : Bool :=
  Json.wellNamed k.fields ms && isAmong [k.name] "kty" ms &&
    (!k.onCurve || isAmong curves "crv" ms) && k.parameters.all (isText · ms)

end KeyKind

namespace Key

def textFields : List String := ["use", "kid", "x5u", "x5t", "x5t#S256"]

def listFields : List String := ["key_ops", "x5c"]

/-- The members that a key of any kind may hold once each. -/
def fields : List String := "alg" :: (textFields ++ listFields)

/-- The levels of lists and objects in a key, itself included. -/
def levels : Nat := 126

def isKey (v : Json) : Bool :=
  match v with
  | .obj ms =>
    v.defect? levels == none && Json.wellNamed fields ms &&
      (Json.optional? (name? isNullOrNothing) "alg" ms).isSome &&
      textFields.all (optionalText · ms) && listFields.all (optionalTexts · ms) &&
      KeyKind.all.any (·.describes ms)
  | _ => false

end Key
end Token

namespace Token.Header

/-- Fields that hold a text or null. -/
def textFields : List String :=
  ["typ", "cty", "jku", "kid", "x5u", "x5t", "x5t#S256", "enc", "zip", "url", "nonce"]

/-- Fields that hold a list of texts or null. -/
def listFields : List String := ["x5c", "crit"]

def fields : List String := "alg" :: "jwk" :: (textFields ++ listFields)

def isNullOrKey (v : Json) : Bool := isNull v || Key.isKey v

def otherMembersAreTexts (ms : Json.Members) : Bool :=
  ms.all fun m => m.1.text?.any (fields.contains ·) || m.2.text?.isSome

def isSupported : Json → Bool
  | .obj ms =>
    Json.wellNamed fields ms && isAmong ["HS256"] "alg" ms &&
      (Json.named "jwk" ms).all isNullOrKey &&
      textFields.all (optionalText · ms) && listFields.all (optionalTexts · ms) &&
      otherMembersAreTexts ms
  | _ => false

/-- The header of the tokens that this library signs. -/
def own : Json := .record [("typ", .str (.text "JWT")), ("alg", .str (.text "HS256"))]

end Token.Header

structure Claims where
  subject : String
  name : String
  roles : List String
  /-- Seconds since the epoch. -/
  expiry : UInt64
  deriving DecidableEq

namespace Claims

def toJson (c : Claims) : Json :=
  .record [("sub", .str (.text c.subject)), ("name", .str (.text c.name)),
    ("roles", .arr (c.roles.map fun r => .str (.text r))), ("exp", .ofUInt64 c.expiry)]

/-- The member names of which a payload may hold one each. -/
def singular : List String := ["sub", "name", "roles", "exp", "nbf", "iss", "aud"]

def ofMembers? (ms : Json.Members) : Option Claims :=
  if Json.wellNamed singular ms then do
    let subject ← Json.required? Json.text? "sub" ms
    let name ← Json.required? Json.text? "name" ms
    let roles ← Json.required? (Json.list? Json.text?) "roles" ms
    let expiry ← Json.required? Json.uint64? "exp" ms
    return ⟨subject, name, roles, expiry⟩
  else none

/-- Whether a value names the audience of a token: a text or a list of texts. -/
def isAudience : Json → Bool
  | .str t => t.text?.isSome
  | .arr items => items.all fun v => v.text?.isSome
  | _ => false

/-- The levels of lists and objects inside a payload that are read. -/
def levels : Nat := 126

/-- Whether no issuer, audience or time of validity stops the reading of the members behind it. What
they hold is not used, so one that gives nothing is passed over. -/
def isPassable (ms : Json.Members) : Bool :=
  (Json.named "iss" ms ++ Json.named "aud" ms).all (·.defect? levels != some .inside) &&
    (Json.named "nbf" ms).all (·.scalarDefect? != some .inside)

/-- Reads a payload for this server, which is no audience that a token can name. -/
def ofPayload? : Json → Option Claims
  | .obj ms =>
    if (Json.named "aud" ms).any isAudience || !isPassable ms then none else ofMembers? ms
  | _ => none

/-- Seconds of grace after the expiry. -/
def leeway : Nat := 60

def isCurrent (now : Nat) (c : Claims) : Bool := now ≤ c.expiry.toNat + leeway

end Claims

inductive AuthError
  | missingToken
  | unknownToken
  | missingConfig
  | signing
  deriving DecidableEq

namespace AuthError

def message : AuthError → String
  | .missingToken => "Missing access token"
  | .unknownToken => "Unrecognised access token"
  | .missingConfig => "Server is not configured to verify access tokens"
  | .signing => "Failed to sign access token"

end AuthError

namespace Token

/-- The authentication code over the first two parts of a token. -/
def code (secret : String) (signed : List Char) : List UInt8 :=
  hmac (Utf8.bytes secret) (Utf8.encode signed)

def part (v : Json) : List Char := Base64Url.encode (Utf8.encode v.chars)

def signedPart (c : Claims) : List Char := part Header.own ++ '.' :: part c.toJson

def sign (c : Claims) (secret : String) : String :=
  let signed := signedPart c
  String.ofList (signed ++ '.' :: Base64Url.encode (code secret signed))

def readPart? (cs : List Char) : Option Json := (Base64Url.decode? cs).bind Json.read?

def verify? (token : String) (secret : String) (now : Nat) : Option Claims :=
  match token.toList.splitOn '.' with
  | [header, payload, signature] => do
    guard (Base64Url.decode? signature = some (code secret (header ++ '.' :: payload)))
    let header ← readPart? header
    guard (Header.isSupported header)
    let claims ← (readPart? payload).bind Claims.ofPayload?
    guard (claims.isCurrent now)
    return claims
  | _ => none

def verify (token secret : String) (now : Nat) : Except AuthError Claims :=
  match verify? token secret now with
  | some claims => .ok claims
  | none => .error .unknownToken

end Token

end PeerRoster

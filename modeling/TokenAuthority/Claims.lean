import TokenAuthority.Json.Fields
import TokenAuthority.Pkce
import TokenAuthority.Scope
import TokenAuthority.Time.Instant

/-!
# Claims

What a token says. An ID token says the same as an access token and may be bound to one by its
hash. Times in claims are whole seconds.
-/

namespace TokenAuthority

open Time (Instant)

structure Claims where
  iss : String
  sub : String
  aud : List String
  iat : Int64
  exp : Int64
  jti : String
  scope : String
  clientId : String
  nonce : String
  deriving DecidableEq

/-- The largest number of seconds a claim can hold. -/
def lastClaimSecond : Int := 0x7FFFFFFFFFFFFFFF

/-- The larger lifetimes are cut off at the largest number of seconds a claim can hold. -/
def lifetimeSeconds (lifetime : UInt64) : Int := min (lifetime.toNat : Int) lastClaimSecond

namespace Claims

/-- Claims that expire at once. -/
def start (iss sub : String) (aud : List String) (issuedAt : Instant) (jti : String) : Claims where
  iss
  sub
  aud
  iat := Int64.ofInt issuedAt.seconds
  exp := Int64.ofInt issuedAt.seconds
  jti
  scope := ""
  clientId := ""
  nonce := ""

/-- The claims with the end of a lifetime, or the last second there is, as their expiry. -/
def expiringAfter (c : Claims) (lifetime : UInt64) : Claims :=
  { c with exp := Int64.ofInt (min (c.iat.toInt + lifetimeSeconds lifetime) lastClaimSecond) }

def scopes (c : Claims) : ScopeSet := .parse c.scope

def expired (c : Claims) (second : Int) : Bool := c.exp.toInt ≤ second

def members (c : Claims) : List (String × Json) :=
  [("iss", .str c.iss), ("sub", .str c.sub), ("aud", .arr (c.aud.map .str)),
    ("iat", .int c.iat.toInt), ("exp", .int c.exp.toInt), ("jti", .str c.jti),
    ("scope", .str c.scope), ("client_id", .str c.clientId), ("nonce", .str c.nonce)]

def toJson (c : Claims) : Json := .obj c.members

open Json in
def fields : Fields Claims :=
  mk
    <$> required "iss" readText
    <*> required "sub" readText
    <*> required "aud" (readList readText)
    <*> required "iat" readInt64
    <*> required "exp" readInt64
    <*> required "jti" readText
    <*> required "scope" readText
    <*> required "client_id" readText
    <*> defaulted "" "nonce" readText

def ofJson : Json.Reading Claims := Json.readRecord fields

end Claims

/-- What claims are made from; the subject and the client have to be there. -/
structure ClaimsRequest where
  issuer : String
  subject : Option String
  audience : List String
  clientId : Option String
  scope : String
  nonce : Option String
  issuedAt : Instant

/-- A text that is there and not empty. -/
def filled? (s : Option String) : Option String := s.filter (· ≠ "")

/-- The claims of a request, with the identifier that the given one yields. -/
def ClaimsRequest.build (r : ClaimsRequest) (jti : String) : Except TokenError Claims :=
  match filled? r.subject, filled? r.clientId with
  | none, _ => .error (.invalidRequest "subject is required")
  | _, none => .error (.invalidRequest "client_id is required")
  | some subject, some clientId =>
    .ok { Claims.start r.issuer subject r.audience r.issuedAt jti with
      scope := r.scope, clientId, nonce := r.nonce.getD "" }

/-- The claims of an ID token. -/
structure IdClaims where
  claims : Claims
  /-- The hash of the access token that was issued along with it. -/
  atHash : Option String
  deriving DecidableEq

namespace IdClaims

def toJson (c : IdClaims) : Json :=
  .obj (c.claims.members ++ Json.present "at_hash" (c.atHash.map .str))

open Json in
def ofJson : Json.Reading IdClaims :=
  readObject (mk <$> Claims.fields <*> optional "at_hash" readText)

end IdClaims

/-- The hash that binds an ID token to an access token: the left half of its digest. -/
def atHash (accessToken : String) : String :=
  Encoding.base64Url ((Encoding.sha256 (Encoding.utf8 accessToken)).take 16)

end TokenAuthority

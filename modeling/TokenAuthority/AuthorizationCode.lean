import TokenAuthority.Pkce
import TokenAuthority.Time.InstantText

/-!
# Authorization codes

A code stands for a user's consent. It is bound to a client and a redirect URI, lives for a short
time, and can be redeemed once.
-/

namespace TokenAuthority

open Time (Instant)

structure AuthorizationCode where
  code : String
  clientId : String
  userId : String
  redirectUri : String
  scopes : List String
  challenge : Option String
  method : Option PkceMethod
  nonce : Option String
  expiresAt : Instant
  used : Bool
  createdAt : Instant
  deriving DecidableEq

/-- How an instant is read. -/
def Json.readInstant : Json.Reading Instant
  | .str s => ((Instant.ofText? s).map .ok).getD (.error .illTyped)
  | _ => .error .illTyped

namespace AuthorizationCode

def expired (c : AuthorizationCode) (now : Instant) : Bool := c.expiresAt ≤ now

/-- Whether a client can redeem the code with a redirect URI. -/
def redeemable (c : AuthorizationCode) (now : Instant) (clientId redirectUri : String) : Bool :=
  !c.used && !c.expired now && c.clientId == clientId && c.redirectUri == redirectUri

def toJson (c : AuthorizationCode) : Json :=
  .obj [("code", .str c.code), ("client_id", .str c.clientId), ("user_id", .str c.userId),
    ("redirect_uri", .str c.redirectUri), ("scopes", .arr (c.scopes.map .str)),
    ("code_challenge", Json.text? c.challenge),
    ("code_challenge_method", Json.text? (c.method.map PkceMethod.name)),
    ("nonce", Json.text? c.nonce), ("expires_at", .str c.expiresAt.text), ("used", .bool c.used),
    ("created_at", .str c.createdAt.text)]

open Json in
def ofJson : Reading AuthorizationCode :=
  readRecord <| mk
    <$> required "code" readText
    <*> required "client_id" readText
    <*> required "user_id" readText
    <*> required "redirect_uri" readText
    <*> required "scopes" (readList readText)
    <*> optional "code_challenge" readText
    <*> optional "code_challenge_method" PkceMethod.ofJson
    <*> optional "nonce" readText
    <*> required "expires_at" readInstant
    <*> required "used" readBool
    <*> required "created_at" readInstant

end AuthorizationCode

end TokenAuthority

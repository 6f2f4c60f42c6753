import TokenAuthority.Algorithm
import TokenAuthority.Pkce

/-!
# Provider metadata

The document in which an authority tells clients where its endpoints are and what they support.
-/

namespace TokenAuthority

structure Discovery where
  issuer : String
  authorizationEndpoint : String
  tokenEndpoint : String
  userinfoEndpoint : String
  revocationEndpoint : String
  jwksUri : String
  responseTypes : List String
  grantTypes : List String
  subjectTypes : List String
  scopes : List String
  authMethods : List String
  signingAlgorithms : List String
  challengeMethods : List String
  deriving DecidableEq

namespace Discovery

/-- A text without the slashes at its end. -/
def trimSlashes (s : String) : String :=
  String.ofList (s.toList.reverse.dropWhile (· = '/')).reverse

/-- The document of an issuer; the plain challenge is named only where it is allowed. -/
def ofIssuer (issuer : String) (algorithm : Algorithm) (allowPlain : Bool) : Discovery :=
  let base := trimSlashes issuer
  { issuer
    authorizationEndpoint := base ++ "/authorize"
    tokenEndpoint := base ++ "/token"
    userinfoEndpoint := base ++ "/userinfo"
    revocationEndpoint := base ++ "/revoke"
    jwksUri := base ++ "/jwks.json"
    responseTypes := ["code"]
    grantTypes := ["authorization_code", "refresh_token"]
    subjectTypes := ["public"]
    scopes := ["openid", "profile", "email"]
    authMethods := ["client_secret_basic", "none"]
    signingAlgorithms := [algorithm.name]
    challengeMethods :=
      PkceMethod.s256.name :: if allowPlain then [PkceMethod.plain.name] else [] }

def toJson (d : Discovery) : Json :=
  let texts := fun (items : List String) => Json.arr (items.map .str)
  .obj [("issuer", .str d.issuer), ("authorization_endpoint", .str d.authorizationEndpoint),
    ("token_endpoint", .str d.tokenEndpoint), ("userinfo_endpoint", .str d.userinfoEndpoint),
    ("revocation_endpoint", .str d.revocationEndpoint), ("jwks_uri", .str d.jwksUri),
    ("response_types_supported", texts d.responseTypes),
    ("grant_types_supported", texts d.grantTypes),
    ("subject_types_supported", texts d.subjectTypes), ("scopes_supported", texts d.scopes),
    ("token_endpoint_auth_methods_supported", texts d.authMethods),
    ("id_token_signing_alg_values_supported", texts d.signingAlgorithms),
    ("code_challenge_methods_supported", texts d.challengeMethods)]

open Json in
def ofJson : Reading Discovery :=
  readRecord <| mk
    <$> required "issuer" readText
    <*> required "authorization_endpoint" readText
    <*> required "token_endpoint" readText
    <*> required "userinfo_endpoint" readText
    <*> required "revocation_endpoint" readText
    <*> required "jwks_uri" readText
    <*> required "response_types_supported" (readList readText)
    <*> required "grant_types_supported" (readList readText)
    <*> required "subject_types_supported" (readList readText)
    <*> required "scopes_supported" (readList readText)
    <*> required "token_endpoint_auth_methods_supported" (readList readText)
    <*> required "id_token_signing_alg_values_supported" (readList readText)
    <*> required "code_challenge_methods_supported" (readList readText)

end Discovery

end TokenAuthority

import TokenAuthority.Discovery
import TokenAuthority.Endpoint.Messages
import TokenAuthority.Grant.Codes
import TokenAuthority.Grant.Rotation

/-!
# The token endpoint

What clients ask of an authority: tokens for a code or a refresh token, the revocation of a refresh
token, and the user behind an access token. The signing key is replaced, if that is due, before a
grant; whether that succeeds makes no difference to the grant.
-/

namespace TokenAuthority

open Operation Time

/-- The token of an authorization header: two words, of which the first is `bearer` in any case. -/
def bearerToken (header : String) : Except TokenError String :=
  match Text.words header with
  | [scheme, token] =>
    if Text.sameLetters scheme "bearer" then .ok token
    else .error (.invalidToken "invalid authorization header")
  | _ => .error (.invalidToken "invalid authorization header")

structure Endpoint where
  codePolicy : CodePolicy
  tokenPolicy : TokenPolicy
  discovery : Discovery

namespace Endpoint

def ofSettings (s : Settings) : Endpoint where
  codePolicy := .ofSettings s
  tokenPolicy := .ofSettings s
  discovery := .ofIssuer s.issuer s.algorithm s.allowPlain

/-- Tokens for a code. -/
def codeGrant (e : Endpoint) (r : TokenRequest) : Operation TokenResponse := do
  let code ← ofExcept (TokenRequest.require "code" r.code)
  let clientId ← ofExcept (TokenRequest.require "client_id" r.clientId)
  let redirectUri ← ofExcept (TokenRequest.require "redirect_uri" r.redirectUri)
  let redeemed ←
    Codes.redeem e.codePolicy ⟨code, clientId, redirectUri, r.verifier⟩ (← ask .clock)
  let request : IssueRequest := {
    userId := some redeemed.userId
    clientId := redeemed.clientId
    scope := " ".intercalate redeemed.scopes
    audience := [redeemed.clientId]
    nonce := redeemed.nonce }
  let tokens ← Issuance.issue request e.tokenPolicy (← ask .clock)
  return .ofTokenSet tokens

/-- Tokens for a refresh token. -/
def refreshGrant (e : Endpoint) (r : TokenRequest) : Operation TokenResponse := do
  let refreshToken ← ofExcept (TokenRequest.require "refresh_token" r.refreshToken)
  let clientId ← ofExcept (TokenRequest.require "client_id" r.clientId)
  let request := Rotation.Request.ofClient (refreshIdOf refreshToken) clientId
  let tokens ← Rotation.refresh request e.tokenPolicy (← ask .clock)
  return .ofTokenSet tokens

/-- Replaces the signing key before a grant, if that is due. -/
def afterRotation {α : Type} (grant : Operation α) : Operation α := do
  let _ ← attempt (Signing.rotateIfDue (← ask .clock))
  grant

/-- A token request. -/
def exchange (e : Endpoint) (r : TokenRequest) : Operation TokenResponse :=
  if r.grantType = "authorization_code" then afterRotation (e.codeGrant r)
  else if r.grantType = "refresh_token" then afterRotation (e.refreshGrant r)
  else fail (.unsupportedGrantType r.grantType)

/-- A token request with the body of its answer. -/
def token (e : Endpoint) (r : TokenRequest) : Operation (Except ErrorBody TokenResponse) := do
  let result ← attempt (e.exchange r)
  return result.mapError (ErrorBody.ofError · r.state)

/-- Revokes a refresh token; one that is not known needs no revocation. -/
def revoke (refreshToken : String) : Operation Unit := do
  if refreshToken = "" then fail (.invalidRequest "token is required")
  else do
    if ← ofStore (.revokeByRefreshId (refreshIdOf refreshToken)) then
      count (.revoked .clientRequest)

/-- The user behind an access token. -/
def userinfo (accessToken : String) : Operation UserInfo := do
  let claims ← Signing.verify Jws.ClaimType.access accessToken
  match ← ofStore (.getUser claims.sub) with
  | some user => return .ofUser user
  | none => fail (.invalidToken "unknown subject")

/-- The public keys that tokens verify under. -/
def publicKeys : Operation KeySet := do
  let ring ← ask .ring
  return ring.publicKeys

end Endpoint

end TokenAuthority

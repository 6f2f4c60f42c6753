import TokenAuthority.Entropy
import TokenAuthority.Operation
import TokenAuthority.Claims

/-!
# Codes in use

A code is issued to a client that is registered and asks for what it may ask for (`Codes.accept`),
and redeemed by the same client with the same redirect URI and, if it sent a challenge, with the
verifier behind it (`Codes.acceptRedemption`). Of several redemptions that pass these checks at the
same time, the one that marks the code as used succeeds.
-/

namespace TokenAuthority

open Operation Time

/-- A request for a code, by a user who has been authenticated. -/
structure CodeRequest where
  clientId : String
  redirectUri : String
  /-- Scope words with blanks between them. -/
  scope : String
  challenge : Option String
  method : Option String
  userId : String
  nonce : Option String

structure CodePolicy where
  lifetime : Duration
  allowPlain : Bool
  strictFormat : Bool

def CodePolicy.ofSettings (s : Settings) : CodePolicy :=
  ⟨.ofSeconds s.codeLifetime, s.allowPlain, s.strictFormat⟩

namespace Codes

/-- The method of a challenge that is acceptable. -/
def acceptChallenge (p : CodePolicy) (challenge : String) (method : Option String) :
    Except TokenError PkceMethod := do
  let method ← PkceMethod.parse method
  if method = .plain ∧ p.allowPlain = false then .error (.unsupportedPkceMethod "plain")
  else if challenge = "" then .error (.invalidRequest "code_challenge is empty")
  else do
    if p.strictFormat then Pkce.checkChallenge challenge method
    return method

/-- The method of a request's challenge; none if it has no challenge and needs none. -/
def acceptMethod (p : CodePolicy) (client : Client) (r : CodeRequest) :
    Except TokenError (Option PkceMethod) :=
  match r.challenge with
  | some challenge => some <$> acceptChallenge p challenge r.method
  | none =>
    if client.requiresPkce then .error (.invalidRequest "code_challenge is required")
    else if r.method.isSome then
      .error (.invalidRequest "code_challenge_method without code_challenge")
    else .ok none

/-- The scopes and the challenge method of a request that a client may make. -/
def accept (p : CodePolicy) (client : Client) (r : CodeRequest) :
    Except TokenError (ScopeSet × Option PkceMethod) :=
  let scopes := ScopeSet.parse r.scope
  if !client.allowsRedirect r.redirectUri then .error (.invalidRedirectUri client.clientId)
  else if r.userId = "" then .error (.invalidRequest "user_id is required")
  else if !client.allowsScopes scopes then .error (.invalidScope scopes.display)
  else (scopes, ·) <$> acceptMethod p client r

/-- Issues a code. -/
def issue (p : CodePolicy) (r : CodeRequest) (now : Instant) : Operation String := do
  match ← ofStore (.getClient r.clientId) with
  | none => fail (.invalidClient r.clientId)
  | some client => do
    let (scopes, method) ← ofExcept (accept p client r)
    let code := secretText (← ask (.random 32))
    let expiresAt ← after now p.lifetime
    ofStore (.createCode {
      code, method, expiresAt
      clientId := client.clientId
      userId := r.userId
      redirectUri := r.redirectUri
      scopes := scopes.scopes
      challenge := r.challenge
      nonce := filled? r.nonce
      used := false
      createdAt := now })
    count (.codes .issued)
    return code

/-- What a client shows to redeem a code. -/
structure Redemption where
  code : String
  clientId : String
  redirectUri : String
  verifier : Option String

/-- Whether the verifier fits the challenge, if there is one. -/
def acceptVerifier (p : CodePolicy) (c : AuthorizationCode) (verifier : Option String) :
    Except TokenError Unit :=
  match c.challenge, verifier with
  | none, _ => .ok ()
  | some _, none => .error (.invalidGrant "code_verifier is required")
  | some challenge, some verifier => do
    if p.strictFormat then Pkce.checkVerifier verifier
    if Pkce.verifies (c.method.getD .plain) challenge verifier then .ok ()
    else .error (.invalidGrant "PKCE verification failed")

/-- Whether a code may be redeemed. -/
def acceptRedemption (p : CodePolicy) (c : AuthorizationCode) (r : Redemption) (now : Instant) :
    Except TokenError Unit :=
  if c.redeemable now r.clientId r.redirectUri then acceptVerifier p c r.verifier
  else if c.used then .error (.invalidGrant "authorization code already used")
  else if c.expired now then .error (.invalidGrant "authorization code expired")
  else if c.clientId ≠ r.clientId then .error (.invalidGrant "client_id mismatch")
  else .error (.invalidGrant "redirect_uri mismatch")

/-- The code of a redemption that may succeed. -/
def check (p : CodePolicy) (r : Redemption) (now : Instant) : Operation AuthorizationCode := do
  match ← ofStore (.getCode r.code) with
  | none => fail (.invalidGrant "unknown authorization code")
  | some stored => do
    ofExcept (acceptRedemption p stored r now)
    return stored

/-- Redeems a code, once. -/
def redeem (p : CodePolicy) (r : Redemption) (now : Instant) : Operation AuthorizationCode := do
  match ← attempt (check p r now) with
  | .error e => do
    count (.codes .rejected)
    fail e
  | .ok stored => do
    if ← ofStore (.markCodeUsed r.code) then do
      count (.codes .redeemed)
      return { stored with used := true }
    else do
      count (.codes .overtaken)
      fail (.invalidGrant "authorization code already used")

end Codes

end TokenAuthority

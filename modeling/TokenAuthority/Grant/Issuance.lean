import TokenAuthority.Entropy
import TokenAuthority.Signing

/-!
# Issuing tokens

A token set is an access token, a refresh token and, at the first issue, an ID token that is bound
to the access token. With it goes a record, which is stored; only the record's refresh identifier
tells of the refresh token.
-/

namespace TokenAuthority

open Operation Time

structure TokenPolicy where
  issuer : String
  accessLifetime : Duration
  idLifetime : Duration
  refreshLifetime : Duration
  deriving DecidableEq

def TokenPolicy.ofSettings (s : Settings) : TokenPolicy :=
  ⟨s.issuer, .ofSeconds s.accessLifetime, .ofSeconds s.idLifetime, .ofSeconds s.refreshLifetime⟩

structure IssueRequest where
  /-- None if the client acts for itself. -/
  userId : Option String
  clientId : String
  scope : String
  /-- If empty, the tokens are for the client. -/
  audience : List String
  nonce : Option String

structure TokenSet where
  accessToken : String
  refreshToken : String
  idToken : Option String
  /-- The lifetime of the access token in whole seconds. -/
  expiresIn : UInt64
  scope : String
  refreshExpiresAt : Instant
  recordId : String
  deriving DecidableEq

/-- A description that shows no token. -/
def TokenSet.debugText (t : TokenSet) : String :=
  "TokenSet \x7b record_id: " ++ Text.quote t.recordId ++ ", expires_in: "
    ++ String.ofList (Text.digits t.expiresIn.toNat) ++ ", scope: " ++ Text.quote t.scope
    ++ ", id_token: " ++ (if t.idToken.isSome then "true" else "false") ++ ", .. \x7d"

/-- The identifier under which a refresh token is found. -/
def refreshIdOf (refreshToken : String) : String := Pkce.digest refreshToken

namespace Issuance

/-- What is minted: a request, and the refresh identifier of the record it continues. -/
structure Mint where
  request : IssueRequest
  parent : Option String
  withIdToken : Bool

/-- The claims of a token set. -/
def claimsRequest (m : Mint) (p : TokenPolicy) (now : Instant) : ClaimsRequest where
  issuer := p.issuer
  subject := some (m.request.userId.getD m.request.clientId)
  audience :=
    if m.request.audience.isEmpty then [m.request.clientId] else m.request.audience
  clientId := some m.request.clientId
  scope := m.request.scope
  nonce := m.request.nonce
  issuedAt := now

/-- Signs tokens and makes their record; stores nothing. -/
def mint (m : Mint) (p : TokenPolicy) (now : Instant) : Operation (TokenSet × TokenRecord) := do
  let jti := Encoding.uuid (← ask (.random 16))
  let claims ← ofExcept ((claimsRequest m p now).build jti)
  let accessToken ← Signing.signAccess claims p.accessLifetime
  let idToken ←
    if m.withIdToken then some <$> Signing.signId claims p.idLifetime (some accessToken)
    else pure none
  let refreshToken := secretText (← ask (.random 32))
  let refreshExpiresAt ← after now p.refreshLifetime
  let id := Encoding.uuid (← ask (.random 16))
  let accessExpiresAt ← after now p.accessLifetime
  let tokens : TokenSet := {
    accessToken, refreshToken, idToken, refreshExpiresAt
    expiresIn := p.accessLifetime.seconds
    scope := m.request.scope
    recordId := id }
  let record : TokenRecord := {
    id, accessToken, accessExpiresAt, refreshExpiresAt
    userId := m.request.userId
    clientId := m.request.clientId
    scope := m.request.scope
    refreshId := refreshIdOf refreshToken
    parent := m.parent
    rotated := false
    revoked := false
    createdAt := now }
  return (tokens, record)

/-- The client of an identifier. -/
def resolveClient (clientId : String) : Operation Client := do
  match ← ofStore (.getClient clientId) with
  | some client => return client
  | none => fail (.clientNotFound clientId)

/-- Issues a first token set. -/
def issue (r : IssueRequest) (p : TokenPolicy) (now : Instant) : Operation TokenSet := do
  let client ← resolveClient r.clientId
  let (tokens, record) ← mint ⟨{ r with clientId := client.clientId }, none, true⟩ p now
  ofStore (.createRecord record)
  let algorithm := (← ask .ring).algorithm
  count (.issued .access algorithm)
  count (.issued .id algorithm)
  count (.issued .refresh algorithm)
  return tokens

end Issuance

end TokenAuthority

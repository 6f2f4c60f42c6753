import TokenAuthority.Grant.Issuance

/-!
# Exchanging refresh tokens

Each refresh token can be exchanged once, for a token set whose record is a child of its own. A
refresh token that comes back after its exchange has leaked: its record and all that descend from
it are revoked. The child is stored before the parent is marked as exchanged; if that fails the
child is revoked again, and if another exchange came first the whole chain is.
-/

namespace TokenAuthority.Rotation

open Operation Time

structure Request where
  refreshId : String
  /-- The client that presents the token, if it has to own it. -/
  client : Option String
  audience : List String

/-- Revokes a record and its descendants. -/
def burn (record : TokenRecord) : Operation TokenSet := do
  match ← tryStore (.revokeChain record.refreshId) with
  | .error e => fail (.serverError ("chain revocation failed: " ++ e.message))
  | .ok n => do
    ask (.count (.revoked .reuseDetected) n)
    count .reuses
    fail .reuseDetected

/-- Stores a child and marks its parent as exchanged. -/
def succeed (record child : TokenRecord) (tokens : TokenSet) : Operation TokenSet := do
  ofStore (.createRecord child)
  match ← tryStore (.markRotated record.refreshId) with
  | .ok true => return tokens
  | .ok false => burn record
  | .error e => do
    let _ ← tryStore (.revokeRecord child.id)
    fail (.ofStore e)

/-- Mints the tokens that continue a record. -/
def exchange (record : TokenRecord) (audience : List String) (p : TokenPolicy) (now : Instant) :
    Operation TokenSet := do
  let client ← Issuance.resolveClient record.clientId
  let request : IssueRequest := {
    userId := record.userId, clientId := client.clientId, scope := record.scope, audience
    nonce := none }
  let (tokens, child) ← Issuance.mint ⟨request, some record.refreshId, false⟩ p now
  succeed record child tokens

def rotate (r : Request) (p : TokenPolicy) (now : Instant) : Operation TokenSet := do
  match ← ofStore (.getRecord r.refreshId) with
  | none => fail (.invalidGrant "unknown refresh token")
  | some record =>
    if record.revoked then fail (.invalidGrant "refresh token revoked")
    else if record.rotated then burn record
    else if r.client.any (· ≠ record.clientId) then
      fail (.invalidGrant "refresh token issued to another client")
    else if record.refreshExpired now then fail .refreshExpired
    else exchange record r.audience p now

/-- What an exchange is counted as. -/
def resultOf : Except TokenError TokenSet → RefreshEnd
  | .ok _ => .success
  | .error .reuseDetected => .reuseDetected
  | .error .refreshExpired => .expired
  | .error (.serverError _) => .error
  | .error _ => .invalid

/-- Exchanges a refresh token. -/
def refresh (r : Request) (p : TokenPolicy) (now : Instant) : Operation TokenSet := do
  let result ← attempt (rotate r p now)
  count (.refreshed (resultOf result))
  ofExcept result

/-- The request of a client for itself. -/
def Request.ofClient (refreshId clientId : String) : Request :=
  ⟨refreshId, some clientId, [clientId]⟩

end TokenAuthority.Rotation

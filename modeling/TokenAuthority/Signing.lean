import TokenAuthority.Jws
import TokenAuthority.Operation

/-!
# Signing keys in use

Operations on the key ring. A new key is generated outside the ring, which takes time; so each of
them looks at the ring, generates a key if it needs one, and looks again when it puts the key in.
Tokens are signed with the key that is active then.
-/

namespace TokenAuthority.Signing

open Operation Time

def generateKey (algorithm : Algorithm) (now : Timestamp) : Operation SigningKey := do
  match ← ask (.generateKey algorithm now) with
  | .ok key => return key
  | .error e => fail (.serverError e)

/-- Gives the ring its first key, unless it has one, and the identifier of the active key. -/
def installKey (now : Timestamp) : Operation String := do
  let ring ← ask .ring
  match ring.active with
  | some active => return active.kid
  | none => do
    let key ← generateKey ring.algorithm now
    ask (.installKey key now)

/-- Replaces the active key if it is due, and tells whether this call did. -/
def rotateIfDue (now : Timestamp) : Operation Bool := do
  let ring ← ask .ring
  if ring.due now then do
    let key ← generateKey ring.algorithm now
    if ← ask (.rotateKey key now) then do
      count .rotations
      return true
    else return false
  else return false

/-- A token that carries a value. -/
def sign (payload : Json) : Operation String := do
  let ring ← ask .ring
  let key ← ofExcept ring.signingKey
  let random ← ask (.random 32)
  return Jws.sign key random payload

/-- An access token whose lifetime begins with the claims' issue, and ends with a whole second. -/
def signAccess (claims : Claims) (lifetime : Duration) : Operation String :=
  sign (claims.expiringAfter lifetime.seconds).toJson

/-- An ID token, bound to an access token if there is one. -/
def signId (claims : Claims) (lifetime : Duration) (accessToken : Option String) :
    Operation String :=
  sign (IdClaims.mk (claims.expiringAfter lifetime.seconds) (accessToken.map atHash)).toJson

/-- The claims of a token that is valid now. -/
def verify (type : Jws.ClaimType) (token : String) : Operation type.Carrier := do
  let ring ← ask .ring
  let now ← ask .clock
  ofExcept (Jws.verify type ring now.seconds token)

end TokenAuthority.Signing

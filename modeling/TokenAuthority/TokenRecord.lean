import TokenAuthority.AuthorizationCode

/-!
# Token records

A record tells of one access token and the refresh token that was handed out with it. The refresh
token itself is not kept, only its digest, the refresh identifier. A record that came from another
one's refresh token names it as its parent, so that records form chains; of a record only the two
flags ever change.
-/

namespace TokenAuthority

open Time (Instant)

structure TokenRecord where
  id : String
  userId : Option String
  clientId : String
  scope : String
  accessToken : String
  refreshId : String
  parent : Option String
  /-- The refresh token has been exchanged. -/
  rotated : Bool
  revoked : Bool
  accessExpiresAt : Instant
  refreshExpiresAt : Instant
  createdAt : Instant
  deriving DecidableEq

namespace TokenRecord

/-- Whether the refresh token can still be exchanged, its expiry aside. -/
def live (r : TokenRecord) : Bool := !r.rotated && !r.revoked

def refreshExpired (r : TokenRecord) (now : Instant) : Bool := r.refreshExpiresAt ≤ now

/-- The user, or the client that acts for itself. -/
def subject (r : TokenRecord) : String := r.userId.getD r.clientId

/-- The first eight bytes of the refresh identifier, or all of it if they do not end with a
character. -/
def logId (r : TokenRecord) : String :=
  match Encoding.ofUtf8? ((Encoding.utf8 r.refreshId).take 8) with
  | some s => if s.utf8ByteSize = 8 then s else r.refreshId
  | none => r.refreshId

def toJson (r : TokenRecord) : Json :=
  .obj [("id", .str r.id), ("user_id", Json.text? r.userId), ("client_id", .str r.clientId),
    ("scope", .str r.scope), ("access_token", .str r.accessToken),
    ("refresh_id", .str r.refreshId), ("parent_refresh_id", Json.text? r.parent),
    ("rotated", .bool r.rotated), ("revoked", .bool r.revoked),
    ("access_expires_at", .str r.accessExpiresAt.text),
    ("refresh_expires_at", .str r.refreshExpiresAt.text), ("created_at", .str r.createdAt.text)]

open Json in
def ofJson : Reading TokenRecord :=
  readRecord <| mk
    <$> required "id" readText
    <*> optional "user_id" readText
    <*> required "client_id" readText
    <*> required "scope" readText
    <*> required "access_token" readText
    <*> required "refresh_id" readText
    <*> optional "parent_refresh_id" readText
    <*> required "rotated" readBool
    <*> required "revoked" readBool
    <*> required "access_expires_at" readInstant
    <*> required "refresh_expires_at" readInstant
    <*> required "created_at" readInstant

end TokenRecord

end TokenAuthority

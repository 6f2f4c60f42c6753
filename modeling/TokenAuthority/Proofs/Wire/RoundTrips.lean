import TokenAuthority.Discovery
import TokenAuthority.Endpoint.Messages
import TokenAuthority.Proofs.Token.Carriage
import TokenAuthority.Proofs.Wire.Instants
import TokenAuthority.Proofs.Wire.KeySets
import TokenAuthority.TokenRecord

/-!
# What is written is read back

Whoever decodes the text of something gets it back, whatever the texts and numbers in it
(`decoded_as_encoded`). Each record is read from its own members (`ofJson_toJson`), for each member
of it is read and has a name of its own, and none of these values is lost in a text
(`within_toJson`). Of the body of an error the status is not written, and the claims of access
tokens and ID tokens are read as each other.
-/

namespace TokenAuthority

open Json

/-- What a text is decoded to. -/
def Json.decode? {α : Type} (reading : Reading α) (s : String) : Option α := do
  let v ← (read s).toOption
  (reading v).toOption

namespace Json

theorem decode?_text {α : Type} {n : Nat} {reading : Reading α} {v : Json} {a : α}
    (h : Within n v) (ha : reading v = .ok a) (hn : n < Progress.depthLimit) :
    decode? reading v.text = some a := by
  rw [decode?, h.read_text hn]
  show (reading v).toOption = some a
  rw [ha]
  rfl

theorem readInstant_text {t : Time.Instant} (h : t.Dated) : readInstant (.str t.text) = .ok t := by
  rw [readInstant, Time.Instant.ofText?_text h]
  rfl

theorem readNullable_method (m : Option PkceMethod) :
    readNullable PkceMethod.ofJson (text? (m.map PkceMethod.name)) = .ok m := by
  rcases m with _ | _ | _ <;> rfl

end Json

theorem ScopeSet.ofJson_toJson (s : ScopeSet) : ofJson s.toJson = .ok s := by
  rw [ofJson, toJson, readList_texts]
  rfl

theorem ScopeSet.within_toJson (s : ScopeSet) : Within 2 s.toJson := .texts s.scopes

namespace Client

variable (c : Client)

theorem ofJson_toJson : ofJson c.toJson = .ok c := by
  obtain ⟨id, clientId, name, redirectUris, scopes, confidential, pkceRequired⟩ := c
  refine readRecord_of_reads
    (a := mk id clientId name redirectUris scopes confidential pkceRequired) ?_
  refine .seq (.seq (.seq (.seq (.seq (.seq (.map ?id mk) ?clientId) ?name) ?redirectUris) ?scopes)
    ?confidential) ?pkceRequired
  case id | clientId | name | confidential | pkceRequired => exact reads_field rfl rfl
  case redirectUris | scopes => exact reads_field rfl (readList_texts _)

theorem within_toJson : Within 2 c.toJson := .obj (by simp)

end Client

namespace User

variable (u : User)

theorem ofJson_toJson : ofJson u.toJson = .ok u := by
  obtain ⟨id, email, emailVerified⟩ := u
  refine readRecord_of_reads (a := mk id email emailVerified) ?_
  refine .seq (.seq (.map ?id mk) ?email) ?emailVerified
  case id | email | emailVerified => exact reads_field rfl rfl

theorem within_toJson : Within 2 u.toJson := .obj (by simp)

end User

namespace AuthorizationCode

variable (c : AuthorizationCode)

theorem ofJson_toJson (hexpiry : c.expiresAt.Dated) (hcreation : c.createdAt.Dated) :
    ofJson c.toJson = .ok c := by
  obtain ⟨code, clientId, userId, redirectUri, scopes, challenge, method, nonce, expiresAt, used,
    createdAt⟩ := c
  refine readRecord_of_reads (a := mk code clientId userId redirectUri scopes challenge method nonce
    expiresAt used createdAt) ?_
  refine .seq (.seq (.seq (.seq (.seq (.seq (.seq (.seq (.seq (.seq (.map ?code mk) ?clientId)
    ?userId) ?redirectUri) ?scopes) ?challenge) ?method) ?nonce) ?expiresAt) ?used) ?createdAt
  case code | clientId | userId | redirectUri | used => exact reads_field rfl rfl
  case scopes => exact reads_field rfl (readList_texts _)
  case challenge | nonce => exact reads_field rfl (readNullable_text? _)
  case method => exact reads_field rfl (readNullable_method _)
  case expiresAt => exact reads_field rfl (readInstant_text hexpiry)
  case createdAt => exact reads_field rfl (readInstant_text hcreation)

theorem within_toJson : Within 2 c.toJson := .obj (by simp)

end AuthorizationCode

namespace TokenRecord

variable (r : TokenRecord)

theorem ofJson_toJson (haccess : r.accessExpiresAt.Dated) (hrefresh : r.refreshExpiresAt.Dated)
    (hcreation : r.createdAt.Dated) : ofJson r.toJson = .ok r := by
  obtain ⟨id, userId, clientId, scope, accessToken, refreshId, parent, rotated, revoked,
    accessExpiresAt, refreshExpiresAt, createdAt⟩ := r
  refine readRecord_of_reads (a := mk id userId clientId scope accessToken refreshId parent rotated
    revoked accessExpiresAt refreshExpiresAt createdAt) ?_
  refine .seq (.seq (.seq (.seq (.seq (.seq (.seq (.seq (.seq (.seq (.seq (.map ?id mk) ?userId)
    ?clientId) ?scope) ?accessToken) ?refreshId) ?parent) ?rotated) ?revoked) ?accessExpiresAt)
    ?refreshExpiresAt) ?createdAt
  case id | clientId | scope | accessToken | refreshId | rotated | revoked =>
    exact reads_field rfl rfl
  case userId | parent => exact reads_field rfl (readNullable_text? _)
  case accessExpiresAt => exact reads_field rfl (readInstant_text haccess)
  case refreshExpiresAt => exact reads_field rfl (readInstant_text hrefresh)
  case createdAt => exact reads_field rfl (readInstant_text hcreation)

theorem within_toJson : Within 2 r.toJson := .obj (by simp)

end TokenRecord

namespace Discovery

variable (d : Discovery)

theorem ofJson_toJson : ofJson d.toJson = .ok d := by
  obtain ⟨issuer, authorization, token, userinfo, revocation, jwks, responseTypes, grantTypes,
    subjectTypes, scopes, authMethods, signingAlgorithms, challengeMethods⟩ := d
  refine readRecord_of_reads (a := mk issuer authorization token userinfo revocation jwks
    responseTypes grantTypes subjectTypes scopes authMethods signingAlgorithms challengeMethods) ?_
  refine .seq (.seq (.seq (.seq (.seq (.seq (.seq (.seq (.seq (.seq (.seq (.seq (.map ?issuer mk)
    ?authorization) ?token) ?userinfo) ?revocation) ?jwks) ?responseTypes) ?grantTypes)
    ?subjectTypes) ?scopes) ?authMethods) ?signingAlgorithms) ?challengeMethods
  case issuer | authorization | token | userinfo | revocation | jwks => exact reads_field rfl rfl
  case responseTypes | grantTypes | subjectTypes | scopes | authMethods | signingAlgorithms
      | challengeMethods =>
    exact reads_field rfl (readList_texts _)

theorem within_toJson : Within 2 d.toJson := .obj (by simp)

end Discovery

namespace TokenResponse

variable (r : TokenResponse)

theorem ofJson_toJson : ofJson r.toJson = .ok r := by
  obtain ⟨accessToken, refreshToken, tokenType, expiresIn, scope, idToken⟩ := r
  refine readRecord_of_reads
    (a := mk accessToken refreshToken tokenType expiresIn scope idToken) ?_
  refine .seq (.seq (.seq (.seq (.seq (.map ?accessToken mk) ?refreshToken) ?tokenType) ?expiresIn)
    ?scope) ?idToken
  case accessToken | refreshToken | tokenType | scope =>
    exact reads_field (v := .str _) (by simp [members_present, members_cons]) rfl
  case expiresIn =>
    exact reads_field (v := .int _) (by simp [members_present, members_cons])
      (readWord_toNat _)
  case idToken =>
    exact reads_optional_text (by simp [members_present, members_cons])

theorem within_toJson : Within 2 r.toJson := .obj (by simp)

end TokenResponse

namespace ErrorBody

variable (b : ErrorBody)

/-- The status is not written. -/
theorem ofJson_toJson : ofJson b.toJson = .ok { b with status := 0 } := by
  obtain ⟨error, description, state, status⟩ := b
  refine readRecord_of_reads (a := mk error description state 0) ?_
  refine .seq (.seq (.map ?error fun error description state => mk error description state 0)
    ?description) ?state
  case error =>
    exact reads_field (v := .str _) (by simp [members_append, members_present, members_cons]) rfl
  case description | state =>
    exact reads_optional_text (by simp [members_append, members_present, members_cons])

theorem within_toJson : Within 2 b.toJson := .obj (by simp)

end ErrorBody

namespace UserInfo

variable (u : UserInfo)

theorem ofJson_toJson : ofJson u.toJson = .ok u := by
  obtain ⟨sub, email, emailVerified⟩ := u
  refine readRecord_of_reads (a := mk sub email emailVerified) ?_
  refine .seq (.seq (.map ?sub mk) ?email) ?emailVerified
  case sub | email | emailVerified => exact reads_field rfl rfl

theorem within_toJson : Within 2 u.toJson := .obj (by simp)

end UserInfo

/-- What is decoded from the text of a record, document or message is what was written, whatever it
holds; its instants are of the calendar, as those of the years 0 to 9999 are. An error comes back
without its status, the claims of an ID token are decoded as claims without their hash, and claims as
those of an ID token that has no hash. -/
theorem decoded_as_encoded :
    (∀ c : Client, decode? Client.ofJson c.toJson.text = some c) ∧
    (∀ u : User, decode? User.ofJson u.toJson.text = some u) ∧
    (∀ c : AuthorizationCode, c.expiresAt.Dated → c.createdAt.Dated →
      decode? AuthorizationCode.ofJson c.toJson.text = some c) ∧
    (∀ r : TokenRecord, r.accessExpiresAt.Dated → r.refreshExpiresAt.Dated → r.createdAt.Dated →
      decode? TokenRecord.ofJson r.toJson.text = some r) ∧
    (∀ c : Claims, decode? Claims.ofJson c.toJson.text = some c ∧
      decode? IdClaims.ofJson c.toJson.text = some ⟨c, none⟩) ∧
    (∀ c : IdClaims, decode? IdClaims.ofJson c.toJson.text = some c ∧
      decode? Claims.ofJson c.toJson.text = some c.claims) ∧
    (∀ k : PublicKey, decode? PublicKey.ofJson k.toJson.text = some k) ∧
    (∀ s : KeySet, decode? KeySet.ofJson s.toJson.text = some s) ∧
    (∀ s : ScopeSet, decode? ScopeSet.ofJson s.toJson.text = some s) ∧
    (∀ d : Discovery, decode? Discovery.ofJson d.toJson.text = some d) ∧
    (∀ r : TokenResponse, decode? TokenResponse.ofJson r.toJson.text = some r) ∧
    (∀ u : UserInfo, decode? UserInfo.ofJson u.toJson.text = some u) ∧
    ∀ b : ErrorBody, decode? ErrorBody.ofJson b.toJson.text = some { b with status := 0 } := by
  refine ⟨fun c => ?client, fun u => ?user, fun c hexpiry hcreation => ?code,
    fun r haccess hrefresh hcreation => ?record, fun c => ⟨?claims, ?claimsAsId⟩,
    fun c => ⟨?idClaims, ?idAsClaims⟩, fun k => ?key, fun s => ?keySet, fun s => ?scopes,
    fun d => ?discovery, fun r => ?response, fun u => ?userInfo, fun b => ?error⟩
  case client => exact decode?_text c.within_toJson c.ofJson_toJson (by decide)
  case user => exact decode?_text u.within_toJson u.ofJson_toJson (by decide)
  case code => exact decode?_text c.within_toJson (c.ofJson_toJson hexpiry hcreation) (by decide)
  case record =>
    exact decode?_text r.within_toJson (r.ofJson_toJson haccess hrefresh hcreation) (by decide)
  case claims => exact decode?_text c.within_toJson c.ofJson_toJson (by decide)
  case claimsAsId =>
    rw [← c.toJson_mk_none]
    exact decode?_text (IdClaims.within_toJson _) (IdClaims.ofJson_toJson _) (by decide)
  case idClaims => exact decode?_text c.within_toJson c.ofJson_toJson (by decide)
  case idAsClaims => exact decode?_text c.within_toJson c.ofJson_claims_toJson (by decide)
  case key => exact decode?_text k.within_toJson k.ofJson_toJson (by decide)
  case keySet => exact decode?_text s.within_toJson s.ofJson_toJson (by decide)
  case scopes => exact decode?_text s.within_toJson s.ofJson_toJson (by decide)
  case discovery => exact decode?_text d.within_toJson d.ofJson_toJson (by decide)
  case response => exact decode?_text r.within_toJson r.ofJson_toJson (by decide)
  case userInfo => exact decode?_text u.within_toJson u.ofJson_toJson (by decide)
  case error => exact decode?_text b.within_toJson b.ofJson_toJson (by decide)

namespace Sample

/-- Half of the leap second at the end of 2016 has passed. -/
def leapSecond : Time.Instant := ⟨1483228799, 1500000000⟩

/-- The last instant of the year 9999. -/
def lastInstant : Time.Instant := ⟨253402300799, 999999999⟩

def writtenCode : AuthorizationCode where
  code := "\"\\\n\x00"
  clientId := ""
  userId := "naïve 😀"
  redirectUri := "https://a/cb"
  scopes := ["", "openid"]
  challenge := none
  method := some .s256
  nonce := some ""
  expiresAt := lastInstant
  used := true
  createdAt := leapSecond

def writtenRecord : TokenRecord where
  id := "r1"
  userId := none
  clientId := "c1"
  scope := "openid"
  accessToken := "a.b.c"
  refreshId := "\x7f"
  parent := some "null"
  rotated := true
  revoked := false
  accessExpiresAt := leapSecond
  refreshExpiresAt := lastInstant
  createdAt := ⟨-62167219200, 0⟩

end Sample

theorem decoded_as_encoded_leap :
    Sample.leapSecond.text = "2016-12-31T23:59:60.500Z" ∧
    decode? AuthorizationCode.ofJson Sample.writtenCode.toJson.text = some Sample.writtenCode ∧
    decode? TokenRecord.ofJson Sample.writtenRecord.toJson.text = some Sample.writtenRecord := by
  have hleap : Sample.leapSecond.Dated := ⟨by decide, by decide, by decide⟩
  have hlast : Sample.lastInstant.Dated := ⟨by decide, by decide, by decide⟩
  have hfirst : Sample.writtenRecord.createdAt.Dated := ⟨by decide, by decide, by decide⟩
  obtain ⟨-, -, hcode, hrecord, -⟩ := decoded_as_encoded
  exact ⟨rfl, hcode _ hlast hleap, hrecord _ hleap hlast hfirst⟩

end TokenAuthority

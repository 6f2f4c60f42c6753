import TokenAuthority.Grant.Issuance

/-!
# Messages of the token endpoint

The parameters of a request and the bodies of its answers.
-/

namespace TokenAuthority

structure TokenRequest where
  grantType : String
  code : Option String
  redirectUri : Option String
  clientId : Option String
  verifier : Option String
  refreshToken : Option String
  /-- Sent back with an error. -/
  state : Option String
  deriving DecidableEq

namespace TokenRequest

open Json in
def ofJson : Reading TokenRequest :=
  readRecord <| mk
    <$> required "grant_type" readText
    <*> optional "code" readText
    <*> optional "redirect_uri" readText
    <*> optional "client_id" readText
    <*> optional "code_verifier" readText
    <*> optional "refresh_token" readText
    <*> optional "state" readText

/-- A parameter that has to be there and not empty. -/
def require (name : String) (value : Option String) : Except TokenError String :=
  match filled? value with
  | some v => .ok v
  | none => .error (.invalidRequest (name ++ " is required"))

end TokenRequest

structure TokenResponse where
  accessToken : String
  refreshToken : String
  tokenType : String
  expiresIn : UInt64
  scope : String
  idToken : Option String
  deriving DecidableEq

namespace TokenResponse

def ofTokenSet (t : TokenSet) : TokenResponse :=
  ⟨t.accessToken, t.refreshToken, "Bearer", t.expiresIn, t.scope, t.idToken⟩

def toJson (r : TokenResponse) : Json :=
  .obj ([("access_token", .str r.accessToken), ("refresh_token", .str r.refreshToken),
    ("token_type", .str r.tokenType), ("expires_in", .int r.expiresIn.toNat),
    ("scope", .str r.scope)] ++ Json.present "id_token" (r.idToken.map .str))

open Json in
def ofJson : Reading TokenResponse :=
  readRecord <| mk
    <$> required "access_token" readText
    <*> required "refresh_token" readText
    <*> required "token_type" readText
    <*> required "expires_in" readWord
    <*> required "scope" readText
    <*> optional "id_token" readText

/-- A description that shows no token. -/
def debugText (r : TokenResponse) : String :=
  "TokenResponse \x7b token_type: " ++ Text.quote r.tokenType ++ ", expires_in: "
    ++ String.ofList (Text.digits r.expiresIn.toNat) ++ ", scope: " ++ Text.quote r.scope
    ++ ", .. \x7d"

end TokenResponse

/-- The body of an answer that is an error. Its status is told apart from it. -/
structure ErrorBody where
  error : String
  description : Option String
  state : Option String
  status : Nat
  deriving DecidableEq

namespace ErrorBody

def ofError (e : TokenError) (state : Option String) : ErrorBody :=
  ⟨e.code, some e.description, state, e.status⟩

def toJson (b : ErrorBody) : Json :=
  .obj ([("error", .str b.error)] ++ Json.present "error_description" (b.description.map .str)
    ++ Json.present "state" (b.state.map .str))

open Json in
def ofJson : Reading ErrorBody :=
  readRecord <| (fun error description state => mk error description state 0)
    <$> required "error" readText
    <*> optional "error_description" readText
    <*> optional "state" readText

end ErrorBody

structure UserInfo where
  sub : String
  email : String
  emailVerified : Bool
  deriving DecidableEq

namespace UserInfo

def ofUser (u : User) : UserInfo := ⟨u.id, u.email, u.emailVerified⟩

def toJson (u : UserInfo) : Json :=
  .obj [("sub", .str u.sub), ("email", .str u.email), ("email_verified", .bool u.emailVerified)]

open Json in
def ofJson : Reading UserInfo :=
  readRecord <| mk
    <$> required "sub" readText
    <*> required "email" readText
    <*> required "email_verified" readBool

end UserInfo

end TokenAuthority

/-!
# Errors

`StoreError` is what a store answers instead of a result, and `TokenError` what an operation of the
authority ends with. A token error has a message for operators and, for clients, one of the seven
OAuth error codes, a description that tells nothing about the cause, and an HTTP status.
-/

namespace TokenAuthority

inductive StoreError where
  | serialization (detail : String)
  | unavailable (detail : String)
  | duplicate (detail : String)
  | timeout (detail : String)
  | invalidInput (detail : String)
  | internal (detail : String)
  deriving DecidableEq

namespace StoreError

def message : StoreError → String
  | .serialization d => "Serialization error: " ++ d
  | .unavailable d => "Store unavailable: " ++ d
  | .duplicate d => "Duplicate key: " ++ d
  | .timeout d => "Operation timed out: " ++ d
  | .invalidInput d => "Invalid input: " ++ d
  | .internal d => "Internal error: " ++ d

/-- Whether the same call may succeed later. -/
def retryable : StoreError → Bool
  | .unavailable _ | .timeout _ => true
  | _ => false

end StoreError

inductive TokenError where
  | invalidRequest (detail : String)
  | invalidClient (detail : String)
  | clientNotFound (clientId : String)
  | invalidRedirectUri (clientId : String)
  | invalidScope (scope : String)
  | invalidGrant (reason : String)
  | reuseDetected
  | refreshExpired
  | unsupportedGrantType (grantType : String)
  | unsupportedPkceMethod (method : String)
  | invalidToken (reason : String)
  | unknownKey (kid : String)
  | noActiveKey
  | serverError (detail : String)
  deriving DecidableEq

namespace TokenError

/-- An error in the settings. -/
def settings (detail : String) : TokenError := .serverError ("configuration: " ++ detail)

def ofStore (e : StoreError) : TokenError := .serverError ("store: " ++ e.message)

def message : TokenError → String
  | .invalidRequest d => "Invalid request: " ++ d
  | .invalidClient d => "Invalid client: " ++ d
  | .clientNotFound id => "Client not found: " ++ id
  | .invalidRedirectUri id => "Redirect URI not registered for client " ++ id
  | .invalidScope s => "Invalid scope: " ++ s
  | .invalidGrant r => "Invalid grant: " ++ r
  | .reuseDetected => "Refresh token reused - chain revoked"
  | .refreshExpired => "Refresh token expired"
  | .unsupportedGrantType t => "Unsupported grant type: " ++ t
  | .unsupportedPkceMethod m => "Unsupported PKCE method: " ++ m
  | .invalidToken r => "Invalid token: " ++ r
  | .unknownKey kid => "Unknown signing key: " ++ kid
  | .noActiveKey => "No active signing key"
  | .serverError d => "Server error: " ++ d

/-- The OAuth error code. -/
def code : TokenError → String
  | .invalidRequest _ | .invalidRedirectUri _ | .unsupportedPkceMethod _ => "invalid_request"
  | .invalidClient _ | .clientNotFound _ => "invalid_client"
  | .invalidScope _ => "invalid_scope"
  | .invalidGrant _ | .reuseDetected | .refreshExpired => "invalid_grant"
  | .unsupportedGrantType _ => "unsupported_grant_type"
  | .invalidToken _ => "invalid_token"
  | .unknownKey _ | .noActiveKey | .serverError _ => "server_error"

/-- What a client is told. -/
def description : TokenError → String
  | .invalidRequest _ => "The request is missing a required parameter or is malformed"
  | .invalidRedirectUri _ => "The redirect_uri is not registered for this client"
  | .unsupportedPkceMethod _ => "Unsupported code_challenge_method"
  | .invalidClient _ | .clientNotFound _ => "Client authentication failed"
  | .invalidScope _ => "The requested scope is invalid or exceeds the registration"
  | .invalidGrant _ | .reuseDetected | .refreshExpired =>
    "The provided grant is invalid, expired, or revoked"
  | .unsupportedGrantType _ => "Grant type not supported"
  | .invalidToken _ => "The access token is invalid or expired"
  | .unknownKey _ | .noActiveKey | .serverError _ =>
    "The server encountered an unexpected condition"

/-- The HTTP status. -/
def status : TokenError → Nat
  | .invalidClient _ | .clientNotFound _ | .invalidToken _ => 401
  | .unknownKey _ | .noActiveKey | .serverError _ => 500
  | _ => 400

/-- Whether the same request may succeed later. -/
def retryable : TokenError → Bool
  | .serverError _ => true
  | _ => false

end TokenError

end TokenAuthority

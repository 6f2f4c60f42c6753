import TokenAuthority.Json.Fields
import TokenAuthority.Scope

/-!
# Clients and users

What is registered with the authority: the applications that may ask for tokens, and the people
they ask for.
-/

namespace TokenAuthority

structure Client where
  id : String
  /-- The identifier that the client shows in requests. -/
  clientId : String
  name : String
  /-- Compared character by character. -/
  redirectUris : List String
  /-- If empty, every scope is allowed. -/
  scopes : List String
  /-- Whether the client can keep a secret. -/
  confidential : Bool
  pkceRequired : Bool
  deriving DecidableEq

namespace Client

def allowsRedirect (c : Client) (uri : String) : Bool := c.redirectUris.contains uri

/-- Whether the client has to send a challenge for a code. -/
def requiresPkce (c : Client) : Bool := !c.confidential || c.pkceRequired

def allowsScopes (c : Client) (s : ScopeSet) : Bool :=
  c.scopes.isEmpty || s.isSubsetOf c.scopes

def toJson (c : Client) : Json :=
  .obj [("id", .str c.id), ("client_id", .str c.clientId), ("name", .str c.name),
    ("redirect_uris", .arr (c.redirectUris.map .str)), ("scopes", .arr (c.scopes.map .str)),
    ("confidential", .bool c.confidential), ("pkce_required", .bool c.pkceRequired)]

open Json in
def ofJson : Reading Client :=
  readRecord <| mk
    <$> required "id" readText
    <*> required "client_id" readText
    <*> required "name" readText
    <*> required "redirect_uris" (readList readText)
    <*> required "scopes" (readList readText)
    <*> required "confidential" readBool
    <*> required "pkce_required" readBool

end Client

structure User where
  /-- The subject of the user's tokens. -/
  id : String
  email : String
  emailVerified : Bool
  deriving DecidableEq

namespace User

def toJson (u : User) : Json :=
  .obj [("id", .str u.id), ("email", .str u.email), ("email_verified", .bool u.emailVerified)]

open Json in
def ofJson : Reading User :=
  readRecord <| mk
    <$> required "id" readText
    <*> required "email" readText
    <*> required "email_verified" readBool

end User

end TokenAuthority

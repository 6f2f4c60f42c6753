import TokenAuthority.Registry

/-!
# Sample data

Registrations and a proof of possession to try an authority with.
-/

namespace TokenAuthority.Sample

/-- A public application that runs in a browser and has to prove possession. -/
def publicApp : Client where
  id := "c1"
  clientId := "c1"
  name := "Public SPA"
  redirectUris := ["https://a/cb"]
  scopes := ["openid", "profile", "email", "offline_access"]
  confidential := false
  pkceRequired := true

/-- A confidential application. -/
def confidentialApp : Client where
  id := "backend"
  clientId := "backend"
  name := "Confidential Backend"
  redirectUris := ["https://backend.example.com/callback", "https://backend.example.com/alt"]
  scopes := ["openid", "profile"]
  confidential := true
  pkceRequired := false

def alice : User := ⟨"u1", "alice@example.com", true⟩

/-- The verifier and the challenge of the example in RFC 7636. -/
def verifier : String := "dBjftJeZ4CVP-mB92K27uhbUJU1p1r_wW1gFWFOEjXk"

def challenge : String := "E9Melhoa2OwvFrEMTJguCHaoeK1t8URWbuGJSstw-cM"

end TokenAuthority.Sample

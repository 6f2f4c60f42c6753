import TokenAuthority.Json.Fields

/-!
# Keys in headers

The header of a token may carry a public key. No signature is verified by it, since the keys of the
ring are the only ones that count, but a token whose header carries something else in its place is
refused. So all that matters of such a key is that it has the form of one: the parameters of its
type, and of those that keys of all types may have none with a wrong type.
-/

namespace TokenAuthority.Jws.EmbeddedKey

open Json

/-- One of some names. -/
def readOneOf (names : List String) : Reading Unit :=
  readName fun s => if names.contains s then some () else none

def curves : List String := ["P-256", "P-384", "P-521", "Ed25519"]

/-- The algorithms that a key may be meant for, those of encryption included. -/
def algorithms : List String :=
  ["HS256", "HS384", "HS512", "ES256", "ES384", "RS256", "RS384", "RS512", "PS256", "PS384",
    "PS512", "EdDSA", "RSA1_5", "RSA-OAEP", "RSA-OAEP-256"]

/-- An algorithm, whose name as an only member may hold an empty object as well as null. -/
def readAlgorithm : Reading Unit
  | .obj [(s, .obj [])] => readOneOf algorithms (.str s)
  | v => readOneOf algorithms v

/-- The parameters of keys of all types. -/
def common : Fields Unit :=
  (fun _ _ _ _ _ _ _ _ => ())
    <$> optional "use" readText
    <*> optional "key_ops" (readList readText)
    <*> optional "alg" readAlgorithm
    <*> optional "kid" readText
    <*> optional "x5u" readText
    <*> optional "x5c" (readList readText)
    <*> optional "x5t" readText
    <*> optional "x5t#S256" readText

/-- The parameters of each type of key. -/
def types : List (Fields Unit) :=
  [ (fun _ _ _ _ => ())
      <$> required "kty" (readOneOf ["EC"])
      <*> required "crv" (readOneOf curves)
      <*> required "x" readText
      <*> required "y" readText,
    (fun _ _ _ => ())
      <$> required "kty" (readOneOf ["RSA"])
      <*> required "n" readText
      <*> required "e" readText,
    (fun _ _ => ())
      <$> required "kty" (readOneOf ["oct"])
      <*> required "k" readText,
    (fun _ _ _ => ())
      <$> required "kty" (readOneOf ["OKP"])
      <*> required "crv" (readOneOf curves)
      <*> required "x" readText ]

def ofJson : Reading Unit := fun v => do
  readObject common v
  if types.any fun parameters => (readObject parameters v).isOk then .ok ()
  else .error .illTyped

end TokenAuthority.Jws.EmbeddedKey

import TokenAuthority.Claims
import TokenAuthority.Json.Reader
import TokenAuthority.Jws.EmbeddedKey
import TokenAuthority.KeyRing

/-!
# Signed tokens

A token is three segments of base64url joined by points: a header, which names the key and its
algorithm, a payload, which holds the claims, and the signature of both by the key. `sign` writes a
token, and `verify` takes a text back to its claims: it looks for the key among those of a ring and
checks algorithm, signature and expiry, in this order.
-/

namespace TokenAuthority

namespace Jws

open Encoding

/-- The algorithms that a header may name; keys are made for three of them only. -/
def algorithmNames : List String :=
  ["HS256", "HS384", "HS512", "ES256", "ES384", "RS256", "RS384", "RS512", "PS256", "PS384",
    "PS512", "EdDSA"]

structure Header where
  algorithm : String
  kid : Option String
  deriving DecidableEq

namespace Header

def toJson (h : Header) : Json :=
  .obj ([("typ", .str "JWT"), ("alg", .str h.algorithm)] ++ Json.present "kid" (h.kid.map .str))

def readAlgorithm : Json.Reading String :=
  Json.readName fun s => if algorithmNames.contains s then some s else none

open Json in
/-- The fields with a meaning of their own; each needs its type. -/
def fields : Fields Header :=
  (fun _ algorithm _ _ _ kid _ _ _ _ => mk algorithm kid)
    <$> optional "typ" readText
    <*> required "alg" readAlgorithm
    <*> optional "cty" readText
    <*> optional "jku" readText
    <*> optional "jwk" EmbeddedKey.ofJson
    <*> optional "kid" readText
    <*> optional "x5u" readText
    <*> optional "x5c" (readList readText)
    <*> optional "x5t" readText
    <*> optional "x5t#S256" readText

def fieldNames : List String :=
  ["typ", "alg", "cty", "jku", "jwk", "kid", "x5u", "x5c", "x5t", "x5t#S256"]

def ofJson : Json.Reading Header := Json.readRecord fields

/-- The header in some bytes. It may have further fields, which are passed over. -/
def ofBytes? (bytes : List UInt8) : Option Header := do
  let v ← (Json.readKept fieldNames.contains bytes).toOption
  (ofJson v).toOption

end Header

/-- The three segments of a token. -/
structure Segments where
  header : String
  payload : String
  signature : String
  deriving DecidableEq

namespace Segments

/-- What is signed. -/
def message (s : Segments) : String := s.header ++ "." ++ s.payload

def text (s : Segments) : String := s.message ++ "." ++ s.signature

/-- The text before the last point, and the text behind it. -/
def splitLast (s : List Char) : Option (List Char × List Char) :=
  let last := (s.reverse.takeWhile (· ≠ '.')).reverse
  if last.length = s.length then none else some (s.take (s.length - last.length - 1), last)

/-- The segments of a text; points further to the left belong to the header. -/
def ofText? (s : String) : Option Segments := do
  let (rest, signature) ← splitLast s.toList
  let (header, payload) ← splitLast rest
  return ⟨.ofList header, .ofList payload, .ofList signature⟩

end Segments

/-- The text of a value as a segment. -/
def segment (v : Json) : String := base64Url (utf8 v.text)

/-- A token that carries a value, signed by a key. -/
def sign (key : SigningKey) (random : Vector UInt8 32) (payload : Json) : String :=
  let header := segment (Header.mk key.algorithm.name (some key.kid)).toJson
  let message := header ++ "." ++ segment payload
  message ++ "." ++ base64Url (key.pair.sign random (utf8 message))

/-- Why a segment holds nothing of a type. -/
inductive SegmentFault where
  | encoding
  | content

def SegmentFault.message : SegmentFault → String
  | .encoding => "Base64 error"
  | .content => "JSON error"

/-- What a segment holds. -/
def readSegment {α : Type} (ofBytes? : List UInt8 → Option α) (segment : String) :
    Except SegmentFault α :=
  match ofBase64Url? segment with
  | none => .error .encoding
  | some bytes => (ofBytes? bytes).elim (.error .content) .ok

/-- A value in which nothing stands that would have to be passed over item by item. -/
def isPlain : Json → Bool
  | .arr (_ :: _) | .obj (_ :: _) => false
  | _ => true

/-- Claims are an object. They may say from when on the token holds, which is not enforced, but has
to be a plain value. -/
def readClaims {α : Type} (reading : Json.Reading α) : Json.Reading α
  | .obj ms =>
    if (Json.members "nbf" ms).all isPlain then reading (.obj ms) else .error .illTyped
  | _ => .error .illTyped

/-- The value in some bytes. -/
def valueOfBytes? (bytes : List UInt8) : Option Json := do
  let text ← ofUtf8? bytes
  (Json.read text).toOption

/-- The claims in some bytes. -/
def claimsOfBytes? {α : Type} (reading : Json.Reading α) (bytes : List UInt8) : Option α := do
  let v ← valueOfBytes? bytes
  (readClaims reading v).toOption

/-- The type of claims that a token may carry. -/
structure ClaimType where
  Carrier : Type
  reading : Json.Reading Carrier
  /-- The claims that every type has. -/
  standard : Carrier → Claims

namespace ClaimType

def access : ClaimType := ⟨Claims, Claims.ofJson, id⟩

def idToken : ClaimType := ⟨IdClaims, IdClaims.ofJson, IdClaims.claims⟩

end ClaimType

/-- Why a token is refused. -/
inductive Refusal where
  | notSegmented
  | header (fault : SegmentFault)
  | noKid
  | unknownKid (kid : String)
  | otherAlgorithm (name : String)
  | signatureEncoding
  | signature
  | payload (fault : SegmentFault)
  | noExpiry
  | pastExpiry
  | atExpiry

def Refusal.message : Refusal → String
  | .notSegmented => "malformed header: InvalidToken"
  | .header fault => "malformed header: " ++ fault.message
  | .noKid => "missing kid"
  | .unknownKid kid => "unknown kid " ++ kid
  | .otherAlgorithm name => "algorithm " ++ name ++ " does not match key"
  | .signatureEncoding => "Base64 error"
  | .signature => "InvalidSignature"
  | .payload fault => fault.message
  | .noExpiry => "Missing required claim: exp"
  | .pastExpiry => "ExpiredSignature"
  | .atExpiry => "token expired"

/-- A token whose expiry is before 1970 counts as one that has none. -/
def checkExpiry (second : Int) (c : Claims) : Except Refusal Unit :=
  if c.exp.toInt < 0 then .error .noExpiry
  else if c.exp.toInt < second then .error .pastExpiry
  else if c.expired second then .error .atExpiry
  else .ok ()

/-- The claims of a token, if a key of the ring signed it and it has not expired by a second. -/
def inspect (type : ClaimType) (ring : KeyRing) (second : Int) (token : String) :
    Except Refusal type.Carrier := do
  let some parts := Segments.ofText? token | throw .notSegmented
  let header ← (readSegment Header.ofBytes? parts.header).mapError .header
  let some kid := header.kid | throw .noKid
  let some key := ring.find? kid | throw (.unknownKid kid)
  if header.algorithm ≠ key.algorithm.name then throw (.otherAlgorithm header.algorithm)
  let some signature := ofBase64Url? parts.signature | throw .signatureEncoding
  if !key.pair.verifies (utf8 parts.message) signature then throw .signature
  let claims ← (readSegment (claimsOfBytes? type.reading) parts.payload).mapError .payload
  checkExpiry second (type.standard claims)
  return claims

/-- The claims of a valid token. -/
def verify (type : ClaimType) (ring : KeyRing) (second : Int) (token : String) :
    Except TokenError type.Carrier :=
  (inspect type ring second token).mapError fun r => .invalidToken r.message

end Jws

end TokenAuthority

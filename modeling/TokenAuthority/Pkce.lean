import TokenAuthority.Encoding.Base64Url
import TokenAuthority.Encoding.Sha256
import TokenAuthority.Encoding.Utf8
import TokenAuthority.Error
import TokenAuthority.Json.Fields
import TokenAuthority.Text.Decimal

/-!
# Proof of possession of a code

A client that asks for a code may send a challenge with its request and has to send the verifier
behind it to redeem the code (PKCE). With the method `S256` the challenge is the digest of the
verifier, with `plain` it is the verifier itself.
-/

namespace TokenAuthority

inductive PkceMethod where
  | plain
  | s256
  deriving DecidableEq

namespace PkceMethod

def name : PkceMethod → String
  | .plain => "plain"
  | .s256 => "S256"

/-- A request that names no method means `plain`. -/
def parse : Option String → Except TokenError PkceMethod
  | none | some "" | some "plain" => .ok .plain
  | some "S256" => .ok .s256
  | some other => .error (.unsupportedPkceMethod other)

def toJson (m : PkceMethod) : Json := .str m.name

def ofName? : String → Option PkceMethod
  | "plain" => some .plain
  | "S256" => some .s256
  | _ => none

def ofJson : Json.Reading PkceMethod := Json.readName ofName?

end PkceMethod

namespace Pkce

open Encoding

/-- The digest of a text, in base64url. -/
def digest (s : String) : String := base64Url (sha256 (utf8 s))

/-- The characters that stand for themselves in a URI. -/
def isUnreserved (c : Char) : Bool :=
  c.isAlphanum || c = '-' || c = '.' || c = '_' || c = '~'

def isBase64Url (c : Char) : Bool := c.isAlphanum || c = '-' || c = '_'

/-- A verifier has 43 to 128 unreserved characters. -/
def checkVerifier (verifier : String) : Except TokenError Unit :=
  let length := verifier.utf8ByteSize
  if length < 43 ∨ 128 < length then
    .error (.invalidGrant ("code verifier length " ++ String.ofList (Text.digits length)
      ++ " outside 43..=128"))
  else if verifier.toList.all isUnreserved then .ok ()
  else .error (.invalidGrant "code verifier contains invalid characters")

/-- Whether a text has the form of a challenge: that of a digest, or of a verifier. -/
def hasChallengeForm (challenge : String) : PkceMethod → Bool
  | .s256 => challenge.utf8ByteSize = 43 && challenge.toList.all isBase64Url
  | .plain => (checkVerifier challenge).isOk

def checkChallenge (challenge : String) (method : PkceMethod) : Except TokenError Unit :=
  if hasChallengeForm challenge method then .ok ()
  else .error (.invalidRequest "malformed code_challenge")

/-- The challenge of a verifier. -/
def challengeOf (verifier : String) : PkceMethod → String
  | .plain => verifier
  | .s256 => digest verifier

/-- Whether a challenge was made from a verifier. -/
def verifies (method : PkceMethod) (challenge verifier : String) : Bool :=
  challengeOf verifier method == challenge

end Pkce

end TokenAuthority

import TokenAuthority.Encoding.Uuid
import TokenAuthority.PublicKey
import TokenAuthority.Text.Quoted
import TokenAuthority.Time.InstantText

/-!
# Signing keys

A signing key signs messages and verifies signatures. How it does that is the business of the
library that made it, of which no more is known than that a key verifies what it has signed and
nothing else (`KeyPair`).
-/

namespace TokenAuthority

open Time (Timestamp)

/-- A private key and the public one that belongs to it. -/
structure KeyPair where
  /-- Some algorithms draw on random bytes. -/
  sign : (random : Vector UInt8 32) → (message : List UInt8) → List UInt8
  verifies : (message signature : List UInt8) → Bool
  /-- The numbers of the public key, in base64url. -/
  numbers : String × String
  verifies_iff : ∀ {message signature : List UInt8},
    verifies message signature = true ↔ ∃ random, signature = sign random message

theorem KeyPair.verifies_sign (p : KeyPair) (random : Vector UInt8 32) (message : List UInt8) :
    p.verifies message (p.sign random message) = true := p.verifies_iff.2 ⟨random, rfl⟩

structure SigningKey where
  kid : String
  algorithm : Algorithm
  createdAt : Timestamp
  pair : KeyPair

namespace SigningKey

/-- A key with sixteen random bytes for its identifier. -/
def ofRandom (algorithm : Algorithm) (createdAt : Timestamp) (id : Vector UInt8 16)
    (pair : KeyPair) : SigningKey :=
  ⟨Encoding.uuid id, algorithm, createdAt, pair⟩

def publicKey (k : SigningKey) : PublicKey :=
  match k.algorithm with
  | .es256 => .p256 k.kid k.pair.numbers.1 k.pair.numbers.2
  | .rs256 | .ps256 => .rsa k.kid k.algorithm k.pair.numbers.1 k.pair.numbers.2

/-- A description that shows nothing of the private key. -/
def debugText (k : SigningKey) : String :=
  "SigningKey \x7b kid: " ++ Text.quote k.kid ++ ", algorithm: " ++ k.algorithm.name
    ++ ", created_at: " ++ k.createdAt.instant.text ++ ", encoding_key: \"[REDACTED]\", .. \x7d"

end SigningKey

end TokenAuthority

import TokenAuthority.Encoding.Base64Url
import TokenAuthority.Encoding.Sha256
import TokenAuthority.SigningKey

/-!
# Keys that sign with digests

A library for keys that needs nothing but a digest. A signature is a nonce with a tag, a digest of
the secret, the nonce and the message, spread over the length that the algorithm prescribes. Whoever
lacks the secret cannot make one.
-/

namespace TokenAuthority

/-- The length of a signature in bytes. -/
def Algorithm.signatureLength : Algorithm → Nat
  | .rs256 | .ps256 => 256
  | .es256 => 64

namespace DigestKeys

open Encoding

/-- The first `n` bytes that a digest is spread to. -/
def spread (data : List UInt8) (n : Nat) : List UInt8 :=
  let tag := sha256 data
  ((List.range ((n + 31) / 32)).flatMap fun i => sha256 (tag ++ [UInt8.ofNat i])).take n

theorem length_spread (data : List UInt8) (n : Nat) : (spread data n).length = n := by
  have hblocks : ∀ tag : List UInt8, ((List.range ((n + 31) / 32)).flatMap fun i =>
      sha256 (tag ++ [UInt8.ofNat i])).length = (n + 31) / 32 * 32 := by
    intro tag
    simp only [List.length_flatMap, length_sha256, List.map_const', List.length_range,
      List.sum_replicate_nat]
  unfold spread
  rw [List.length_take, hblocks]
  omega

section Signatures

variable (a : Algorithm) (secret : Vector UInt8 32)

/-- The signature of a message that begins with a nonce. -/
def stamp (nonce message : List UInt8) : List UInt8 :=
  nonce ++ spread (secret.toList ++ nonce ++ message) (a.signatureLength - 32)

/-- The nonce that an algorithm makes of random bytes; one algorithm is deterministic. -/
def nonce (random : List UInt8) : List UInt8 :=
  match a with
  | .rs256 => List.replicate 32 0
  | .ps256 | .es256 => random

def sign (random : Vector UInt8 32) (message : List UInt8) : List UInt8 :=
  stamp a secret (nonce a random.toList) message

def verifies (message signature : List UInt8) : Bool :=
  signature == stamp a secret (nonce a (signature.take 32)) message

theorem take_stamp {nonce : List UInt8} (h : nonce.length = 32) (message : List UInt8) :
    (stamp a secret nonce message).take 32 = nonce := by
  simp [stamp, ← h]

theorem verifies_sign (random : Vector UInt8 32) (message : List UInt8) :
    verifies a secret message (sign a secret random message) = true := by
  have h : (nonce a random.toList).length = 32 := by
    unfold nonce
    split <;> simp
  have h' : nonce a (nonce a random.toList) = nonce a random.toList := by
    unfold nonce
    split <;> rfl
  rw [verifies, sign, take_stamp a secret h, h', beq_self_eq_true]

theorem verifies_iff {message signature : List UInt8} :
    verifies a secret message signature = true ↔
      ∃ random : Vector UInt8 32, signature = sign a secret random message := by
  constructor
  · intro h
    have hstamp : signature = stamp a secret (nonce a (signature.take 32)) message := eq_of_beq h
    by_cases hrs : a = .rs256
    · subst hrs
      exact ⟨Vector.replicate 32 0, hstamp⟩
    · have hnonce : ∀ bytes, nonce a bytes = bytes := by
        intro bytes
        unfold nonce
        split <;> first | rfl | contradiction
      -- The nonce stands whole in the signature, as that is longer.
      have hlength : (signature.take 32).length = 32 := by
        have hsum := congrArg List.length hstamp
        have hlong : 64 ≤ a.signatureLength := by
          unfold Algorithm.signatureLength
          split <;> simp
        rw [hnonce, stamp, List.length_append, length_spread] at hsum
        rw [List.length_take] at hsum ⊢
        omega
      refine ⟨⟨(signature.take 32).toArray, by simpa using hlength⟩, ?_⟩
      rw [sign, hnonce]
      rwa [hnonce] at hstamp
  · rintro ⟨random, rfl⟩
    exact verifies_sign a secret random message

/-- A number that is published for a secret: `label` tells its numbers apart. -/
def published (label : UInt8) (length : Nat) : String :=
  base64Url (spread (secret.toList ++ [label]) length)

/-- Two coordinates, or a modulus and an exponent. -/
def numbers : String × String :=
  match a with
  | .es256 => (published secret 0 32, published secret 1 32)
  | .rs256 | .ps256 => (published secret 2 256, "AQAB")

/-- The pair of keys that belongs to a secret. -/
def pair : KeyPair := ⟨sign a secret, verifies a secret, numbers a secret, verifies_iff a secret⟩

end Signatures

end DigestKeys

end TokenAuthority

import TokenAuthority.Algorithm
import TokenAuthority.Json.Fields
import TokenAuthority.Json.Printer

/-!
# Public keys

The public part of a signing key, and the set of them that an authority publishes. An RSA key has a
modulus and an exponent, one on P-256 the two coordinates of a point.
-/

namespace TokenAuthority

structure PublicKey where
  kty : String
  kid : String
  use : String
  alg : String
  n : Option String
  e : Option String
  crv : Option String
  x : Option String
  y : Option String
  deriving DecidableEq

namespace PublicKey

def rsa (kid : String) (algorithm : Algorithm) (n e : String) : PublicKey :=
  ⟨algorithm.keyType, kid, "sig", algorithm.name, some n, some e, none, none, none⟩

def p256 (kid x y : String) : PublicKey :=
  ⟨Algorithm.es256.keyType, kid, "sig", Algorithm.es256.name, none, none, some "P-256", some x,
    some y⟩

def toJson (k : PublicKey) : Json :=
  .obj ([("kty", .str k.kty), ("kid", .str k.kid), ("use", .str k.use), ("alg", .str k.alg)]
    ++ Json.present "n" (k.n.map .str) ++ Json.present "e" (k.e.map .str)
    ++ Json.present "crv" (k.crv.map .str) ++ Json.present "x" (k.x.map .str)
    ++ Json.present "y" (k.y.map .str))

open Json in
def ofJson : Reading PublicKey :=
  readRecord <| mk
    <$> required "kty" readText
    <*> required "kid" readText
    <*> required "use" readText
    <*> required "alg" readText
    <*> optional "n" readText
    <*> optional "e" readText
    <*> optional "crv" readText
    <*> optional "x" readText
    <*> optional "y" readText

end PublicKey

structure KeySet where
  keys : List PublicKey
  deriving DecidableEq

namespace KeySet

def find? (s : KeySet) (kid : String) : Option PublicKey := s.keys.find? (·.kid == kid)

def toJson (s : KeySet) : Json := .obj [("keys", .arr (s.keys.map PublicKey.toJson))]

open Json in
def ofJson : Reading KeySet :=
  readRecord (mk <$> required "keys" (readList PublicKey.ofJson))

/-- The text in which the set is published. -/
def text (s : KeySet) : String := s.toJson.text

end KeySet

end TokenAuthority

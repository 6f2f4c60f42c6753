import TokenAuthority.Encoding.Base64Url
import TokenAuthority.Encoding.Sha256
import TokenAuthority.Encoding.Uuid

/-!
# Random bytes

A source of random bytes is a seed and the number of blocks that were drawn from it: block `n` is
the digest of the seed and `n`.
-/

namespace TokenAuthority

structure Entropy where
  seed : List UInt8
  drawn : Nat
  deriving DecidableEq

namespace Entropy

/-- A number as eight bytes, least byte first. -/
def counterBytes (n : Nat) : List UInt8 :=
  (List.range 8).map fun i => UInt8.ofNat (n >>> (8 * i))

def block (seed : List UInt8) (n : Nat) : List UInt8 :=
  Encoding.sha256 (seed ++ counterBytes n)

/-- `n` random bytes. -/
def draw (n : Nat) (e : Entropy) : Vector UInt8 n × Entropy :=
  let blocks := (n + 31) / 32
  let bytes := ((List.range blocks).flatMap fun i => block e.seed (e.drawn + i)).toArray
  (Vector.ofFn fun i => bytes.getD i 0, { e with drawn := e.drawn + blocks })

end Entropy

/-- A secret of 32 random bytes: the value of a code, or a refresh token. -/
def secretText (random : Vector UInt8 32) : String := Encoding.base64Url random.toList

end TokenAuthority

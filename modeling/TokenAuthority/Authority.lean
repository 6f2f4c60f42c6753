import TokenAuthority.Entropy
import TokenAuthority.Operation
import TokenAuthority.Store.Disturbance

/-!
# A running authority

An authority holds all that operations call upon: a store, a key ring, counters, a clock and a
source of random bytes. It performs each call in one step, and an operation call by call.
-/

namespace TokenAuthority

open Time (Timestamp)

structure Authority where
  store : DisturbedStore
  ring : KeyRing
  meters : Meters
  clock : Timestamp
  entropy : Entropy
  /-- How the library for keys makes a pair from random bytes. -/
  pair : Algorithm → Vector UInt8 32 → KeyPair

namespace Authority

def perform : (c : Call) → Authority → c.Answer × Authority
  | .store c, a =>
    let (answer, store) := a.store.perform c
    (answer, { a with store })
  | .clock, a => (a.clock, a)
  | .random n, a =>
    let (bytes, entropy) := a.entropy.draw n
    (bytes, { a with entropy })
  | .generateKey algorithm createdAt, a =>
    let (id, entropy) := a.entropy.draw 16
    let (secret, entropy) := entropy.draw 32
    (.ok (.ofRandom algorithm createdAt id (a.pair algorithm secret)), { a with entropy })
  | .ring, a => (a.ring, a)
  | .installKey key now, a =>
    let (kid, ring) := a.ring.install key now
    (kid, { a with ring })
  | .rotateKey key now, a =>
    let (rotated, ring) := a.ring.rotate key now
    (rotated, { a with ring })
  | .count counter n, a => ((), { a with meters := a.meters.add counter n })

/-- Performs an operation without any other in between. -/
def run {α : Type} (operation : Operation α) (a : Authority) : Outcome α × Authority :=
  operation.run perform a

end Authority

end TokenAuthority

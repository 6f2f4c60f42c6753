import TokenAuthority.Settings
import TokenAuthority.SigningKey

/-!
# The key ring

A ring holds one active key, which signs, and the keys that were active before it, which still
verify. After a period the active key is replaced and becomes the newest of the retired ones; with
a retention set, each replacement drops the retired keys that have reached that age.
-/

namespace TokenAuthority

open Time (Timestamp)

structure RetiredKey where
  key : SigningKey
  retiredAt : Timestamp

/-- Period and retention are in nanoseconds. -/
structure KeyRing where
  algorithm : Algorithm
  period : Nat
  /-- The age at which a retired key is dropped; none to keep all. -/
  retention : Option Nat
  active : Option SigningKey
  /-- Oldest first. -/
  retired : List RetiredKey
  /-- The instant that the active key was put in for. -/
  lastRotation : Option Timestamp

namespace KeyRing

/-- A ring without keys. -/
def empty (algorithm : Algorithm) (period : Nat) (retention : Option Nat) : KeyRing :=
  ⟨algorithm, period, retention, none, [], none⟩

def ofSettings (s : Settings) : KeyRing :=
  empty s.algorithm (s.rotationPeriod.toNat * 1000000000)
    (s.retention.map (·.toNat * 1000000000))

/-- Whether a key is to be put in: there is none, or the period of the active one has passed. -/
def due (r : KeyRing) (now : Timestamp) : Bool :=
  r.active.isNone || r.lastRotation.all fun last => (last.elapsed now).any (r.period ≤ ·)

/-- Puts in the first key, unless there is one, and gives the identifier of the active key. -/
def install (r : KeyRing) (key : SigningKey) (now : Timestamp) : String × KeyRing :=
  match r.active with
  | some active => (active.kid, r)
  | none => (key.kid, { r with active := some key, lastRotation := some now })

/-- Whether a retired key stays. One that retires in the future does. -/
def keeps (r : KeyRing) (now : Timestamp) (k : RetiredKey) : Bool :=
  r.retention.all fun retention => (k.retiredAt.elapsed now).all (· < retention)

/-- Puts a key in the active one's place. -/
def replace (r : KeyRing) (key : SigningKey) (now : Timestamp) : KeyRing :=
  let retired := r.retired ++ (r.active.map fun active => ⟨active, now⟩).toList
  { r with
    active := some key, lastRotation := some now, retired := retired.filter (r.keeps now) }

/-- Puts in a new key if one is due, and tells whether it did. -/
def rotate (r : KeyRing) (key : SigningKey) (now : Timestamp) : Bool × KeyRing :=
  if r.due now then (true, r.replace key now) else (false, r)

/-- The keys that verify, the active one first and then the oldest. -/
def keys (r : KeyRing) : List SigningKey :=
  r.active.toList ++ r.retired.map (·.key)

def find? (r : KeyRing) (kid : String) : Option SigningKey := r.keys.find? (·.kid == kid)

/-- The key of an identifier. -/
def key (r : KeyRing) (kid : String) : Except TokenError SigningKey :=
  match r.find? kid with
  | some k => .ok k
  | none => .error (.unknownKey kid)

def signingKey (r : KeyRing) : Except TokenError SigningKey :=
  match r.active with
  | some key => .ok key
  | none => .error .noActiveKey

/-- The public keys, that of the active key first and then the newest. -/
def publicKeys (r : KeyRing) : KeySet :=
  ⟨(r.active.toList ++ (r.retired.map (·.key)).reverse).map SigningKey.publicKey⟩

end KeyRing

end TokenAuthority

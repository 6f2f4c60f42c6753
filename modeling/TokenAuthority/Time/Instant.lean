/-!
# Instants

A point of time, counted from the start of 1970 in UTC. The instants that can be reached end with
the year 262142, so that adding a lifetime to one may fail (`Instant.after`). An instant may lie in
a leap second; what a clock shows never does (`Timestamp`).
-/

namespace TokenAuthority.Time

/-- A length of time: seconds, and nanoseconds that do not make another. -/
structure Duration where
  seconds : UInt64
  nanos : Nat
  nanos_lt : nanos < 1000000000
  deriving DecidableEq

namespace Duration

def ofSeconds (n : UInt64) : Duration := ⟨n, 0, Nat.succ_pos _⟩

def nanoseconds (d : Duration) : Nat := d.seconds.toNat * 1000000000 + d.nanos

@[simp]
theorem seconds_ofSeconds (n : UInt64) : (ofSeconds n).seconds = n := rfl

end Duration

/-- A second and the nanoseconds that have passed of it; a leap second is more than 10^9 of them. -/
structure Instant where
  seconds : Int
  nanos : Nat
  deriving DecidableEq, Inhabited

namespace Instant

def ofMillis (ms : Int) : Instant := ⟨ms / 1000, (ms % 1000).toNat * 1000000⟩

/-- The millisecond that an instant lies in. -/
def toMillis (t : Instant) : Int := t.seconds * 1000 + (t.nanos / 1000000 : Nat)

protected def lt (s t : Instant) : Prop :=
  s.seconds < t.seconds ∨ s.seconds = t.seconds ∧ s.nanos < t.nanos

instance : LT Instant := ⟨Instant.lt⟩

instance : LE Instant := ⟨fun s t => ¬ t < s⟩

instance (s t : Instant) : Decidable (s < t) :=
  inferInstanceAs (Decidable (s.seconds < t.seconds ∨ s.seconds = t.seconds ∧ s.nanos < t.nanos))

instance (s t : Instant) : Decidable (s ≤ t) :=
  inferInstanceAs (Decidable (¬ t < s))

/-- The last second there is. -/
def lastSecond : Int := 8210266876799

/-- The instant so many nanoseconds later. What leaves a leap second leaves from the second before
it. -/
def add (t : Instant) (span : Nat) : Instant where
  seconds := t.seconds + ((t.nanos % 1000000000 + span) / 1000000000 : Nat)
  nanos :=
    if 1000000000 ≤ t.nanos ∧ t.nanos + span < 2000000000 then t.nanos + span
    else (t.nanos % 1000000000 + span) % 1000000000

theorem seconds_add (t : Instant) (span : Nat) :
    (t.add span).seconds = t.seconds + ((t.nanos % 1000000000 + span) / 1000000000 : Nat) := rfl

/-- The longest lifetime that is added as it is, in nanoseconds. -/
def longestLifetime : Nat := 9223372036854775807 * 1000000

/-- A hundred years of 365 days, which stand for every longer lifetime. -/
def cappedLifetime : Nat := 36500 * 86400 * 1000000000

/-- The nanoseconds that a lifetime is added as. -/
def span (lifetime : Duration) : Nat :=
  if lifetime.nanoseconds ≤ longestLifetime then lifetime.nanoseconds else cappedLifetime

/-- The instant at which a lifetime that begins now ends, if there is such an instant. -/
def after (now : Instant) (lifetime : Duration) : Option Instant :=
  let t := now.add (span lifetime)
  if t.seconds ≤ lastSecond then some t else none

theorem after_eq_some {now t : Instant} {lifetime : Duration} (h : now.after lifetime = some t) :
    t = now.add (span lifetime) ∧ t.seconds ≤ lastSecond := by
  simp only [after, Option.ite_none_right_eq_some, Option.some.injEq] at h
  exact ⟨h.2.symm, h.2 ▸ h.1⟩

@[simp]
theorem toMillis_ofMillis (ms : Int) : (ofMillis ms).toMillis = ms := by
  simp only [ofMillis, toMillis]
  omega

end Instant

/-- What a clock shows, in nanoseconds: it stands still for a leap second. -/
structure Timestamp where
  nanoseconds : Int
  deriving DecidableEq, Inhabited

namespace Timestamp

def seconds (t : Timestamp) : Int := t.nanoseconds / 1000000000

def instant (t : Timestamp) : Instant := ⟨t.seconds, (t.nanoseconds % 1000000000).toNat⟩

instance : Coe Timestamp Instant := ⟨instant⟩

@[simp]
theorem seconds_instant (t : Timestamp) : t.instant.seconds = t.seconds := rfl

def ofMillis (ms : Int) : Timestamp := ⟨ms * 1000000⟩

/-- The nanoseconds that have passed; none if the clock went back. -/
def elapsed (since now : Timestamp) : Option Nat :=
  if since.nanoseconds ≤ now.nanoseconds then
    some (now.nanoseconds - since.nanoseconds).toNat
  else none

end Timestamp

end TokenAuthority.Time

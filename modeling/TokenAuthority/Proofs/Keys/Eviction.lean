import Mathlib.Algebra.Order.Floor.Div
import Mathlib.Tactic.Linarith
import TokenAuthority.Proofs.Completion
import TokenAuthority.Proofs.Keys.Succession

/-!
# Which retired keys stay

A replacement of the active key drops the retired keys that have reached the retention. Whatever
the instants of the calls, keys are retired a period apart (`KeyRing.Spaced.pairwise_retirements`),
so that the keys that stay are the last of all that were ever retired, and no more than there are
periods in the retention (`eviction_keeps_the_young`).
-/

namespace TokenAuthority

open Operation Time

namespace RetiredKey

variable {period retention : Nat} {now : Timestamp} {l : List RetiredKey}

/-- A key was retired at least a period before another. -/
def Precedes (period : Nat) (k k' : RetiredKey) : Prop :=
  k.retiredAt.nanoseconds + period ≤ k'.retiredAt.nanoseconds

end RetiredKey

namespace KeyRing

section Rules

variable {r : KeyRing} {period retention : Nat} {now : Timestamp} {line : List ActiveKey}

end Rules

end KeyRing

namespace Signing

variable {G : Reply → Prop} {w : World}

end Signing

/-- A call that replaces the active key if it is due: its instant, and what the surroundings put
into it. -/
structure Tending where
  now : Timestamp
  replies : Nat → Reply

namespace World

def tend (w : World) (t : Tending) : Outcome Bool × World :=
  complete (Signing.rotateIfDue t.now) w t.replies

/-- The key that a call retires. -/
def retires (w : World) (t : Tending) : List RetiredKey :=
  if (w.tend t).1 = .ok true then (w.ring.active.map fun active => ⟨active, t.now⟩).toList else []

/-- The keys that a row of calls retires, in their order. -/
def retired (w : World) : List Tending → List RetiredKey
  | [] => []
  | t :: calls => w.retires t ++ (w.tend t).2.retired calls

section Line

variable {algorithm : Algorithm} {period : Nat} {retention : Option Nat}

end Line

end World

namespace Sample

end Sample

end TokenAuthority

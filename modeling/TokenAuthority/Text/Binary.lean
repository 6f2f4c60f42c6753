/-!
# Binary fractions

The numbers `m * 2 ^ q` with at most 53 bits, to whose precision numbers that are no integers are
kept. Every operation gives the fraction nearest to its exact result (`Binary.ofRatio?`), ties to
even, or none if that is too large. All arithmetic is exact up to this last step.
-/

namespace TokenAuthority.Text

/-- The number `significand * 2 ^ exponent`. -/
structure Binary where
  significand : Nat
  exponent : Int
  deriving DecidableEq

/-- The number `base ^ exponent` as a quotient of natural numbers. -/
def power (base : Nat) (exponent : Int) : Nat × Nat :=
  (base.pow exponent.toNat, base.pow (-exponent).toNat)

/-- The nearest integer to `n / d`, ties to even. -/
def nearest (n d : Nat) : Nat :=
  let k := n / d
  let r := 2 * (n % d)
  if r < d || (r == d && k % 2 == 0) then k else k + 1

namespace Binary

def zero : Binary := ⟨0, 0⟩

/-- The least number of 53 bits. -/
def leastFull : Nat := 0x10000000000000

/-- The exponent of two at which the positive number `n / d` has 53 bits, or the least one there
is. -/
def exponentOf (n d : Nat) : Int :=
  let q : Int := (n.log2 : Int) - (d.log2 : Int) - 53
  let (a, b) := power 2 q
  max (if d * a * (2 * leastFull) ≤ n * b then q + 1 else q) (-1074)

/-- The binary fraction nearest to `n / d`; none if that is too large. -/
def ofRatio? (n d : Nat) : Option Binary :=
  let q := exponentOf n d
  let (a, b) := power 2 q
  let m := nearest (n * b) (d * a)
  let (m, q) := if m = 2 * leastFull then (leastFull, q + 1) else (m, q)
  if m = 0 then some zero
  else if 972 ≤ q then none
  else some ⟨m, q⟩

/-- A fraction as a quotient of natural numbers. -/
def ratio (x : Binary) : Nat × Nat :=
  let (a, b) := power 2 x.exponent
  (x.significand * a, b)

def mul? (x y : Binary) : Option Binary :=
  ofRatio? (x.ratio.1 * y.ratio.1) (x.ratio.2 * y.ratio.2)

def div? (x y : Binary) : Option Binary :=
  ofRatio? (x.ratio.1 * y.ratio.2) (x.ratio.2 * y.ratio.1)

/-- The greatest power of ten that is a binary fraction's size. -/
def greatestPower : Nat := 308

/-- The fraction nearest to a power of ten. -/
def tenTo? (k : Nat) : Option Binary := ofRatio? (Nat.pow 10 k) 1

/-- Divides by a power of ten, by the greatest one as often as is needed. -/
def shrink? (x : Binary) (k : Nat) : Option Binary :=
  if k ≤ greatestPower then do x.div? (← tenTo? k)
  else if x = zero then some zero
  else do shrink? (← x.div? (← tenTo? greatestPower)) (k - greatestPower)
termination_by k
decreasing_by simp only [greatestPower] at *; omega

/-- Multiplies by a power of ten. -/
def scale? (x : Binary) (exponent : Int) : Option Binary :=
  if exponent < 0 then x.shrink? exponent.natAbs
  else if x = zero then some zero
  else if exponent.toNat ≤ greatestPower then do x.mul? (← tenTo? exponent.toNat)
  else none

end Binary

end TokenAuthority.Text

import TokenAuthority.Store.Call

/-!
# Disturbed stores

A store may fail, lose a call or hear it twice. A disturbance says how the calls of one method go
wrong, from which call on and how often; a disturbed store is one with at most one disturbance a
method.
-/

namespace TokenAuthority

/-- How a call goes wrong. -/
inductive Mishap where
  /-- It fails and does nothing. -/
  | fails (e : StoreError)
  /-- It seems to find nothing, and does nothing. -/
  | silent
  /-- It is performed twice, and answered the second time. -/
  | repeated
  deriving DecidableEq

structure Disturbance where
  method : StoreCall.Method
  mishap : Mishap
  /-- The number of calls that still go well. -/
  skip : Nat
  /-- The number of calls that go wrong after those; none if all do. -/
  times : Option Nat
  deriving DecidableEq

/-- What a disturbance makes of the next call of its method: the mishap, if that call goes wrong,
and what is left of the disturbance. -/
def Disturbance.next (d : Disturbance) : Option Mishap × Disturbance :=
  if 0 < d.skip then (none, { d with skip := d.skip - 1 })
  else
    match d.times with
    | none => (some d.mishap, d)
    | some 0 => (none, d)
    | some (n + 1) => (some d.mishap, { d with times := some n })

structure DisturbedStore where
  store : Store
  disturbances : List Disturbance

namespace DisturbedStore

def healthy (s : Store) : DisturbedStore := ⟨s, []⟩

/-- Disturbs a method, instead of any disturbance that it has. -/
def disturb (s : DisturbedStore) (d : Disturbance) : DisturbedStore :=
  { s with disturbances := d :: s.disturbances.filter (·.method != d.method) }

def heal (s : DisturbedStore) : DisturbedStore := { s with disturbances := [] }

/-- The mishap of the next call of a method, and what is left of the disturbances. -/
def next (method : StoreCall.Method) : List Disturbance → Option Mishap × List Disturbance
  | [] => (none, [])
  | d :: ds =>
    if d.method = method then (d.next.1, d.next.2 :: ds)
    else ((next method ds).1, d :: (next method ds).2)

def perform (s : DisturbedStore) (c : StoreCall) : Except StoreError c.Result × DisturbedStore :=
  let (mishap, disturbances) := next c.method s.disturbances
  match mishap with
  | none =>
    let (answer, store) := s.store.perform c
    (answer, ⟨store, disturbances⟩)
  | some (.fails e) => (.error e, ⟨s.store, disturbances⟩)
  | some .silent => (.ok c.nothing, ⟨s.store, disturbances⟩)
  | some .repeated =>
    let (answer, store) := (s.store.perform c).2.perform c
    (answer, ⟨store, disturbances⟩)

end DisturbedStore

end TokenAuthority

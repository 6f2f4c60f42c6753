import Mathlib.Tactic.SplitIfs
import TokenAuthority.Authority

/-!
# The world of an operation

What operations share is a store, a key ring and counters. Everything else that a call can depend
on is put into a `Reply`: the time, random bytes, a pair of keys, and whether the key generator or
the store fails this once. A failing store does nothing. Statements about every row of replies are
statements about every clock, every source of random bytes, every library for keys and every pattern
of failures, and so also about an authority with its own, if its store does no worse than fail
(`Authority.exists_complete_eq`).
-/

namespace TokenAuthority

open Time (Timestamp)

structure World where
  store : Store
  ring : KeyRing
  meters : Meters

/-- What the surroundings put into one call. -/
structure Reply where
  clock : Timestamp
  bytes : (n : Nat) → Vector UInt8 n
  pair : KeyPair
  keyFailure : Option String
  storeFailure : Option StoreError

def Reply.healthy (r : Reply) : Bool := r.storeFailure.isNone

namespace World

def perform (reply : Reply) : (c : Call) → World → c.Answer × World
  | .store c, w =>
    match reply.storeFailure with
    | some e => (.error e, w)
    | none => ((w.store.perform c).1, { w with store := (w.store.perform c).2 })
  | .clock, w => (reply.clock, w)
  | .random n, w => (reply.bytes n, w)
  | .generateKey algorithm createdAt, w =>
    match reply.keyFailure with
    | some e => (.error e, w)
    | none => (.ok (.ofRandom algorithm createdAt (reply.bytes 16) reply.pair), w)
  | .ring, w => (w.ring, w)
  | .installKey key now, w =>
    ((w.ring.install key now).1, { w with ring := (w.ring.install key now).2 })
  | .rotateKey key now, w =>
    ((w.ring.rotate key now).1, { w with ring := (w.ring.rotate key now).2 })
  | .count counter n, w => ((), { w with meters := w.meters.add counter n })

/-- Performs a call with the first of a row of replies. -/
def answer (c : Call) (s : World × (Nat → Reply)) : c.Answer × World × (Nat → Reply) :=
  ((s.1.perform (s.2 0) c).1, (s.1.perform (s.2 0) c).2, fun n => s.2 (n + 1))

/-- Performs an operation without any other in between. -/
def complete {α : Type} (operation : Operation α) (w : World) (replies : Nat → Reply) :
    Outcome α × World :=
  ((operation.run answer (w, replies)).1, (operation.run answer (w, replies)).2.1)

end World

/-- The only mishap of the store is that calls fail. -/
def DisturbedStore.OnlyFails (s : DisturbedStore) : Prop :=
  ∀ d ∈ s.disturbances, ∃ e, d.mishap = .fails e

theorem Disturbance.next_mishap (d : Disturbance) :
    d.next.2.mishap = d.mishap ∧ (d.next.1 = none ∨ d.next.1 = some d.mishap) := by
  unfold Disturbance.next
  split
  · exact ⟨rfl, .inl rfl⟩
  · split <;> simp

theorem DisturbedStore.next_onlyFails (method : StoreCall.Method) : ∀ {ds : List Disturbance},
    (∀ d ∈ ds, ∃ e, d.mishap = .fails e) →
    ((next method ds).1 = none ∨ ∃ e, (next method ds).1 = some (.fails e))
      ∧ ∀ d ∈ (next method ds).2, ∃ e, d.mishap = .fails e
  | [], _ => ⟨.inl rfl, by simp [next]⟩
  | d :: ds, h => by
    obtain ⟨⟨e, hd⟩, hds⟩ := List.forall_mem_cons.1 h
    obtain ⟨hnext, hrest⟩ := next_onlyFails method hds
    unfold next
    split_ifs
    · obtain ⟨hm, hn⟩ := d.next_mishap
      refine ⟨hn.imp_right fun hn => ⟨e, hn.trans (congrArg some hd)⟩, ?_⟩
      exact List.forall_mem_cons.2 ⟨⟨e, hm.trans hd⟩, hds⟩
    · exact ⟨hnext, List.forall_mem_cons.2 ⟨⟨e, hd⟩, hrest⟩⟩

namespace Authority

def world (a : Authority) : World := ⟨a.store.store, a.ring, a.meters⟩

/-- What the source of an authority puts into its next call. A new key takes its bytes from two
draws. -/
def reply (a : Authority) (c : Call) : Reply where
  clock := a.clock
  bytes n := (a.entropy.draw n).1
  pair :=
    match c with
    | .generateKey algorithm _ => a.pair algorithm ((a.entropy.draw 16).2.draw 32).1
    | _ => a.pair .es256 (a.entropy.draw 32).1
  keyFailure := none
  storeFailure :=
    match c with
    | .store c =>
      match (DisturbedStore.next c.method a.store.disturbances).1 with
      | some (.fails e) => some e
      | _ => none
    | _ => none

theorem perform_reply (a : Authority) (h : a.store.OnlyFails) (c : Call) :
    a.world.perform (a.reply c) c = ((a.perform c).1, (a.perform c).2.world)
      ∧ (a.perform c).2.store.OnlyFails := by
  rcases c with c | _ | _ | _ | _ | _ | _ | _
  · obtain ⟨hn, hrest⟩ := DisturbedStore.next_onlyFails c.method h
    rcases hn with hn | ⟨e, hn⟩ <;>
      simp only [perform, DisturbedStore.perform, World.perform, reply, hn] <;>
      exact ⟨rfl, hrest⟩
  all_goals exact ⟨rfl, h⟩

/-- An authority whose store does no worse than fail performs an operation as a world does, for
some replies. -/
theorem exists_complete_eq {α : Type} : ∀ (operation : Operation α) (a : Authority),
    a.store.OnlyFails → ∃ replies, World.complete operation a.world replies =
      ((a.run operation).1, (a.run operation).2.world)
  | .done _, a, _ => ⟨fun _ => a.reply .clock, rfl⟩
  | .call c next, a, h => by
    obtain ⟨hp, h'⟩ := a.perform_reply h c
    obtain ⟨replies, hr⟩ := exists_complete_eq (next (a.perform c).1) (a.perform c).2 h'
    refine ⟨fun | 0 => a.reply c | n + 1 => replies n, ?_⟩
    rw [show a.run (.call c next) = (a.perform c).2.run (next (a.perform c).1) from rfl, ← hr]
    unfold World.complete
    simp only [Operation.run, World.answer, hp]

end Authority

end TokenAuthority

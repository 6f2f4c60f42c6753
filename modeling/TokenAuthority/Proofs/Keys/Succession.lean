import Mathlib.Data.List.Chain
import Mathlib.Data.List.Nodup
import TokenAuthority.Proofs.World

/-!
# The succession of keys

A key ring is told by the line of the keys that have been put into it (`KeyRing.ofLine`): the last
of them is active, and each of the others was retired when the next one came. No call does anything
to a ring but add a key to that line (`World.ring_perform`), and it does so no earlier than a period
after the key before (`KeyRing.Spaced`). Which keys a ring has, in what order and for how long, is
read from the line.
-/

namespace TokenAuthority

open Time (Timestamp)

namespace Time.Timestamp

theorem any_elapsed_iff {since now : Timestamp} {n : Nat} :
    (since.elapsed now).any (n ≤ ·) ↔ since.nanoseconds + n ≤ now.nanoseconds := by
  unfold elapsed
  split <;> simp <;> omega

theorem all_elapsed_iff {since now : Timestamp} {n : Nat} :
    (since.elapsed now).all (· < n) ↔ now.nanoseconds < since.nanoseconds + n := by
  unfold elapsed
  split <;> simp <;> omega

end Time.Timestamp

/-- A key that was put into a ring, and the instant that it was put in for. -/
structure ActiveKey where
  key : SigningKey
  installedAt : Timestamp

def ActiveKey.Precedes (period : Nat) (a b : ActiveKey) : Prop :=
  a.installedAt.nanoseconds + period ≤ b.installedAt.nanoseconds

namespace KeyRing

section Rules

variable {r : KeyRing} {now : Timestamp}

theorem due_iff : r.due now ↔ r.active.isSome →
    ∀ last, r.lastRotation = some last → last.nanoseconds + r.period ≤ now.nanoseconds := by
  unfold due
  rcases r.active with _ | key
  · simp
  · rcases r.lastRotation with _ | last <;> simp [Timestamp.any_elapsed_iff]

theorem keeps_iff {k : RetiredKey} : r.keeps now k ↔ ∀ retention, r.retention = some retention →
    now.nanoseconds < k.retiredAt.nanoseconds + retention := by
  unfold keeps
  rcases r.retention with _ | retention
  · simp
  · simp only [Option.all_some, Timestamp.all_elapsed_iff, Option.some.injEq, forall_eq']

end Rules

/-- The keys, oldest first. -/
def byAge (r : KeyRing) : List SigningKey :=
  r.retired.map (·.key) ++ r.active.toList

theorem perm_byAge (r : KeyRing) : r.keys.Perm r.byAge := List.perm_append_comm

/-- The keys of a line but the last, each retired when the next one came. -/
def retirements : List ActiveKey → List RetiredKey
  | a :: b :: line => ⟨a.key, b.installedAt⟩ :: retirements (b :: line)
  | _ => []

/-- Each key of a line came at least a period after the one before it. -/
def Spaced (period : Nat) (line : List ActiveKey) : Prop := line.IsChain (ActiveKey.Precedes period)

/-- The ring that a line of keys has come to. -/
def ofLine (algorithm : Algorithm) (period : Nat) (retention : Option Nat)
    (line : List ActiveKey) : KeyRing where
  algorithm
  period
  retention
  active := line.getLast?.map (·.key)
  retired := (retirements line).filter fun k => line.getLast?.all fun a =>
    (empty algorithm period retention).keeps a.installedAt k
  lastRotation := line.getLast?.map (·.installedAt)

section Line

variable {algorithm : Algorithm} {period : Nat} {retention : Option Nat} {line : List ActiveKey}
  {a b : ActiveKey} {key : SigningKey} {now : Timestamp}

theorem due_ofLine : (ofLine algorithm period retention line).due now ↔
    ∀ a, line.getLast? = some a → a.installedAt.nanoseconds + period ≤ now.nanoseconds := by
  rw [due_iff]
  unfold ofLine
  rcases line.getLast? with _ | a <;> simp

theorem retirements_append : ∀ line : List ActiveKey, retirements (line ++ [b]) =
    retirements line ++ (line.getLast?.map fun a => ⟨a.key, b.installedAt⟩).toList
  | [] => rfl
  | [_] => rfl
  | a :: a' :: line => by
    have ih := retirements_append (a' :: line)
    simp only [List.cons_append, retirements] at ih ⊢
    rw [ih, List.getLast?_cons_cons]

theorem map_key_retirements : ∀ line : List ActiveKey,
    (retirements line).map (·.key) = line.dropLast.map (·.key)
  | [] => rfl
  | [_] => rfl
  | a :: a' :: line => by
    simp only [retirements, List.map_cons, map_key_retirements (a' :: line),
      List.dropLast_cons_cons]

theorem map_retiredAt_retirements : ∀ line : List ActiveKey,
    (retirements line).map (·.retiredAt) = line.tail.map (·.installedAt)
  | [] => rfl
  | [_] => rfl
  | a :: a' :: line => by
    simp only [retirements, List.map_cons, map_retiredAt_retirements (a' :: line), List.tail_cons]

theorem mem_retirements {after : List ActiveKey} : ∀ before : List ActiveKey,
    ⟨a.key, b.installedAt⟩ ∈ retirements (before ++ a :: b :: after)
  | [] => List.mem_cons_self
  | [_] => List.mem_cons_of_mem _ (mem_retirements [])
  | _ :: c :: before => List.mem_cons_of_mem _ (mem_retirements (c :: before))

section Step

variable (hdue : (ofLine algorithm period retention line).due now)

include hdue

theorem Spaced.append (h : Spaced period line) : Spaced period (line ++ [⟨key, now⟩]) := by
  refine List.isChain_append.2 ⟨h, .singleton _, fun a ha b hb => ?_⟩
  obtain rfl : b = ⟨key, now⟩ := by simpa [eq_comm] using hb
  exact due_ofLine.1 hdue a ha

/-- What has been dropped would be dropped again. -/
theorem keeps_of_keeps {k : RetiredKey} (ha : line.getLast? = some a)
    (h : (empty algorithm period retention).keeps now k) :
    (empty algorithm period retention).keeps a.installedAt k := by
  have hspaced := due_ofLine.1 hdue a ha
  rw [keeps_iff] at h ⊢
  intro retention hr
  have := h retention hr
  omega

theorem replace_ofLine : (ofLine algorithm period retention line).replace key now =
    ofLine algorithm period retention (line ++ [⟨key, now⟩]) := by
  have hkeeps : ∀ k, (empty algorithm period retention).keeps now k →
      line.getLast?.all fun a => (empty algorithm period retention).keeps a.installedAt k := by
    intro k hk
    rcases ha : line.getLast? with _ | a
    · rfl
    · exact keeps_of_keeps hdue ha hk
  have hretired : (retirements (line ++ [⟨key, now⟩])).filter
        ((empty algorithm period retention).keeps now) =
      ((ofLine algorithm period retention line).retired ++
        (line.getLast?.map fun a => RetiredKey.mk a.key now).toList).filter
          ((empty algorithm period retention).keeps now) := by
    rw [retirements_append, List.filter_append, List.filter_append, ofLine, List.filter_filter]
    congr 1
    -- What was dropped before would be dropped now.
    refine List.filter_congr fun k _ => ?_
    rw [Bool.eq_iff_iff, Bool.and_eq_true]
    exact ⟨fun hk => ⟨hk, hkeeps k hk⟩, fun hk => hk.1⟩
  have hline : ofLine algorithm period retention (line ++ [⟨key, now⟩]) =
      ⟨algorithm, period, retention, some key, (retirements (line ++ [⟨key, now⟩])).filter
        ((empty algorithm period retention).keeps now), some now⟩ := by
    simp [ofLine]
  rw [hline, hretired]
  unfold replace ofLine
  rcases line.getLast? with _ | a <;> rfl

end Step

theorem Spaced.pairwise (h : Spaced period line) : line.Pairwise (ActiveKey.Precedes period) :=
  have : IsTrans ActiveKey (ActiveKey.Precedes period) :=
    ⟨fun _ _ _ => by unfold ActiveKey.Precedes; omega⟩
  List.isChain_iff_pairwise.1 h

theorem pairwise_retired (h : Spaced period line) :
    (ofLine algorithm period retention line).retired.Pairwise fun k k' =>
      k.retiredAt.nanoseconds ≤ k'.retiredAt.nanoseconds := by
  have htail : ((retirements line).map (·.retiredAt)).Pairwise fun t t' =>
      t.nanoseconds ≤ t'.nanoseconds := by
    rw [map_retiredAt_retirements, List.pairwise_map]
    refine h.pairwise.tail.imp fun h => ?_
    unfold ActiveKey.Precedes at h
    omega
  exact (List.pairwise_map.1 htail).filter _

theorem sublist_byAge :
    List.Sublist (ofLine algorithm period retention line).byAge (line.map (·.key)) := by
  rcases List.eq_nil_or_concat' line with rfl | ⟨before, a, rfl⟩
  · exact .slnil
  have hretired : List.Sublist ((ofLine algorithm period retention (before ++ [a])).retired.map
      (·.key)) ((retirements (before ++ [a])).map (·.key)) := List.filter_sublist.map _
  rw [map_key_retirements, List.dropLast_concat] at hretired
  simpa [byAge, ofLine] using hretired

theorem nodup_keys (h : (line.map (·.key.kid)).Nodup) :
    ((ofLine algorithm period retention line).keys.map (·.kid)).Nodup := by
  refine ((perm_byAge _).map _).nodup_iff.2 ((sublist_byAge.map (·.kid)).nodup ?_)
  rwa [List.map_map]

/-- A key is in the ring as long as none has come that is younger than it by the retention. -/
theorem mem_keys_ofLine {before after : List ActiveKey}
    (h : ∀ b ∈ after.head?, ∀ c ∈ after.getLast?, ∀ age, retention = some age →
      c.installedAt.nanoseconds < b.installedAt.nanoseconds + age) :
    a.key ∈ (ofLine algorithm period retention (before ++ a :: after)).keys := by
  rcases after with _ | ⟨b, after⟩
  · simp [keys, ofLine]
  · have hretired : ⟨a.key, b.installedAt⟩ ∈
        (ofLine algorithm period retention (before ++ a :: b :: after)).retired := by
      refine List.mem_filter.2 ⟨mem_retirements before, ?_⟩
      rw [Option.all_eq_true]
      intro c hc
      exact keeps_iff.2 (h b rfl c (by simpa using hc))
    exact List.mem_append_right _ (List.mem_map_of_mem (f := RetiredKey.key) hretired)

theorem mem_keys_of_retention_none (h : a ∈ line) :
    a.key ∈ (ofLine algorithm period none line).keys := by
  obtain ⟨before, after, rfl⟩ := List.append_of_mem h
  exact mem_keys_ofLine nofun

end Line

end KeyRing

def Call.puts (ring : KeyRing) : Call → Option ActiveKey
  | .installKey key now => if ring.active.isNone then some ⟨key, now⟩ else none
  | .rotateKey key now => if ring.due now then some ⟨key, now⟩ else none
  | _ => none

/-- A call adds to the line of the keys the one that it puts in, a period or more after the last. -/
theorem World.ring_perform {algorithm : Algorithm} {period : Nat} {retention : Option Nat}
    {line : List ActiveKey} {w : World} (hring : w.ring = .ofLine algorithm period retention line)
    (hspaced : KeyRing.Spaced period line) (reply : Reply) (c : Call) :
    (w.perform reply c).2.ring =
        .ofLine algorithm period retention (line ++ (c.puts w.ring).toList) ∧
      KeyRing.Spaced period (line ++ (c.puts w.ring).toList) := by
  have hsame : w.ring = .ofLine algorithm period retention (line ++ []) ∧
      KeyRing.Spaced period (line ++ []) := by
    rw [List.append_nil]
    exact ⟨hring, hspaced⟩
  cases c with
  | store c =>
    unfold perform
    rcases reply.storeFailure with _ | e <;> exact hsame
  | generateKey algorithm' now =>
    unfold perform
    rcases reply.keyFailure with _ | e <;> exact hsame
  | installKey key now =>
    unfold perform Call.puts KeyRing.install
    dsimp only
    rcases ha : w.ring.active with _ | a
    · obtain rfl : line = [] := by
        rw [hring] at ha
        exact List.getLast?_eq_none_iff.1 (Option.map_eq_none_iff.1 ha)
      rw [hring]
      exact ⟨rfl, .singleton _⟩
    · exact hsame
  | rotateKey key now =>
    unfold perform Call.puts KeyRing.rotate
    dsimp only
    by_cases hdue : w.ring.due now
    · rw [if_pos hdue, if_pos hdue]
      rw [hring] at hdue ⊢
      exact ⟨KeyRing.replace_ofLine hdue, hspaced.append hdue⟩
    · rw [if_neg hdue, if_neg hdue]
      exact hsame
  | _ => exact hsame

end TokenAuthority

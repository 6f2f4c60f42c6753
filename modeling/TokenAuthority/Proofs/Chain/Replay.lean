import TokenAuthority.Proofs.Chain.Burn

/-!
# Replays

A refresh token that comes back after its exchange burns its chain, unless its record is revoked:
then it is refused and nothing changes (`complete_of_revoked`). Its chain has been burned already in
that case, unless someone asked to revoke this very token (`replay_burns`). The revocation of a
token that has been exchanged so keeps its chain from being burned (`replay_after_revocation`).
-/

namespace TokenAuthority

namespace Chain

open Phase

variable {q : Request} {x : String} {r : TokenRecord} {w : World} {replies : Nat → Reply}

theorem start_of_refreshId? (hq : q.refreshId? = some x) : start q = ready x := by
  unfold start
  rw [hq]
  rfl

/-- A request for a record that is rotated but not revoked revokes it and what descends from it. -/
theorem complete_of_rotated (hq : q.refreshId? = some x) (hr : w.store.record? x = some r)
    (hrot : r.rotated = true) (hrev : r.revoked = false) (hreplies : ∀ n, (replies n).healthy) :
    q.Fails .reuseDetected (World.complete q.operation w replies).1 ∧
      (World.complete q.operation w replies).2.store = (w.store.revokeChain x).2 := by
  have hread : afterRead x (.ok (w.store.record? x)) = replayed x := by
    rw [hr]
    simp [afterRead, hrot, hrev]
  have hcall : ∀ s φ c, (s = w.store ∧ (φ = ready x ∨ φ = replayed x) ∨
      s = (w.store.revokeChain x).2 ∧ φ = burned x) → Allows φ c →
      ((s.perform c).2 = w.store ∧ (φ.next c (s.perform c).1 = ready x ∨
          φ.next c (s.perform c).1 = replayed x) ∨
        (s.perform c).2 = (w.store.revokeChain x).2 ∧ φ.next c (s.perform c).1 = burned x) := by
    intro s φ c hK hc
    have hidle : Idle x φ := by
      rcases hK with ⟨-, rfl | rfl⟩ | ⟨-, rfl⟩ <;> simp [Idle]
    rcases hidle.call hc s with ⟨rfl, rfl⟩ | ⟨rfl, rfl⟩ | ⟨hs, hsame⟩
    · obtain rfl : s = w.store := by simpa using hK
      exact .inl ⟨rfl, .inr hread⟩
    · obtain rfl : s = w.store := by simpa using hK
      exact .inr ⟨rfl, rfl⟩
    · rwa [hs, hsame]
  obtain ⟨φ, hfits, hφ⟩ := (regime.obeys q).complete_store hcall
    (.inl ⟨rfl, .inl (start_of_refreshId? hq)⟩) hreplies
  rcases hφ with ⟨-, rfl | rfl⟩ | ⟨hs, rfl⟩
  · exact hfits.elim
  · exact hfits.elim
  · exact ⟨hfits, hs⟩

/-- A request for a revoked record is refused and changes nothing. -/
theorem complete_of_revoked (hq : q.refreshId? = some x) (hr : w.store.record? x = some r)
    (hrev : r.revoked = true) (hreplies : ∀ n, (replies n).healthy) :
    (∃ m, q.Fails (.invalidGrant m) (World.complete q.operation w replies).1) ∧
      (World.complete q.operation w replies).2.store = w.store := by
  have hread : afterRead x (.ok (w.store.record? x)) = refused x := by
    rw [hr]
    exact if_pos hrev
  have hcall : ∀ s φ c, (s = w.store ∧ (φ = ready x ∨ φ = refused x)) → Allows φ c →
      ((s.perform c).2 = w.store ∧ (φ.next c (s.perform c).1 = ready x ∨
        φ.next c (s.perform c).1 = refused x)) := by
    rintro s φ c ⟨rfl, hφ⟩ hc
    have hidle : Idle x φ := hφ.imp_right .inl
    rcases hidle.call hc w.store with ⟨rfl, rfl⟩ | ⟨-, rfl⟩ | ⟨hs, hsame⟩
    · exact ⟨rfl, .inr hread⟩
    · simp at hφ
    · rw [hs, hsame]
      exact ⟨rfl, hφ⟩
  obtain ⟨φ, hfits, hs, rfl | rfl⟩ := (regime.obeys q).complete_store hcall
    ⟨rfl, .inl (start_of_refreshId? hq)⟩ hreplies
  · exact hfits.elim
  · exact ⟨hfits, hs⟩

/-- What is revoked although nobody asked for it was reached when its chain was burned. -/
theorem Sound.revoked_of_blamed {s : Store} {ph : List Phase} {y : String} (h : Sound s ph)
    (hquiet : ∀ x c, stored x c ∉ ph ∧ beaten x c ∉ ph) (hx : s.Revoked x)
    (hasked : revoking x ∉ ph) (hy : s.Descends y x) : s.Revoked y := by
  obtain ⟨z, hz, hxz⟩ := (h.blamed x hx).resolve_left hasked
  exact h.revoked_of_burned hquiet hz (hy.trans hxz)

end Chain

/-- When no exchange is in flight, a request for a rotated record fails. It burns the chain, unless
the record is revoked. The record and all that descends from it are then revoked, and are refused
from then on, unless someone asked to revoke the very token that has come back. -/
theorem replay_burns {s : System} (hs : s.Reachable) (hquiet : s.Quiet) {x : String}
    {r : TokenRecord} (hr : s.world.store.record? x = some r) (hrot : r.rotated = true)
    {q : Request} (hq : q.refreshId? = some x) {replies : Nat → Reply}
    (hreplies : ∀ n, (replies n).healthy) {o : Outcome q.Result} {w : World}
    (ho : World.complete q.operation s.world replies = (o, w)) :
    (r.revoked = false → q.Fails .reuseDetected o) ∧
    (r.revoked = true → (∃ m, q.Fails (.invalidGrant m) o) ∧ w.store = s.world.store) ∧
    (r.revoked = false ∨ (∀ t ∈ s.threads, t.request.revokes? ≠ some x) →
      ∀ y, w.store.Descends y x → w.store.Revoked y ∧
        ∀ (later : List Move) (t : Thread) (replies : Nat → Reply), (∀ m ∈ later, m.healthy) →
          t ∈ ((System.start w).run later).threads → t.request.refreshId? = some y →
          (∀ n, (replies n).healthy) → ∃ m, t.request.Fails (.invalidGrant m)
            (World.complete t.rest ((System.start w).run later).world replies).1) := by
  have hrevoked : r.revoked = false ∨ (∀ t ∈ s.threads, t.request.revokes? ≠ some x) →
      ∀ y, w.store.Descends y x → w.store.Revoked y := by
    intro hasked y hy
    rcases hrev : r.revoked
    · obtain ⟨-, hw⟩ := Chain.complete_of_rotated hq hr hrot hrev hreplies
      rw [ho] at hw
      rw [show w.store = _ from hw] at hy ⊢
      rw [Store.descends_eq_of_links Store.links_revokeChain] at hy
      exact (Store.revoked_revokeChain hs.sound.keyed).2 (.inl ⟨hy.known ⟨r, hr⟩, hy⟩)
    · obtain ⟨-, hw⟩ := Chain.complete_of_revoked hq hr hrev hreplies
      rw [ho] at hw
      rw [show w.store = _ from hw] at hy ⊢
      have hnot : .revoking x ∉ Chain.regime.phases s := by
        intro hmem
        obtain ⟨t, ht, hp⟩ := List.mem_map.1 hmem
        refine hasked.resolve_left (by simp [hrev]) t ht ?_
        exact Chain.revokes?_of_revoking (hs.lawful t ht) hp
      exact hs.sound.revoked_of_blamed (hs.not_pending hquiet) ⟨r, hr, hrev⟩ hnot hy
  refine ⟨fun hrev => ?_, fun hrev => ?_, fun hasked y hy => ⟨hrevoked hasked y hy, ?_⟩⟩
  · have := (Chain.complete_of_rotated hq hr hrot hrev hreplies).1
    rwa [ho] at this
  · have := Chain.complete_of_revoked hq hr hrev hreplies
    rwa [ho] at this
  · intro later t replies' hlater ht hty hreplies'
    obtain ⟨i, hi⟩ := List.mem_iff_getElem?.1 ht
    exact refused_of_revoked (s := System.start w) (fun t ht => absurd ht List.not_mem_nil)
      (hrevoked hasked y hy) hlater (Nat.zero_le i) hi hty hreplies'

/-- A token that has been exchanged once comes back, and its child is revoked. -/
theorem replay_burns_exchanged :
    Sample.exchanged.Reachable ∧ Sample.exchanged.Quiet ∧
    Sample.exchanged.world.store.Rotated (Sample.refreshId 1) ∧
    ∃ o w, World.complete (Sample.exchange 1).operation Sample.exchanged.world
        (fun _ => Sample.reply 3) = (o, w) ∧
      (Sample.exchange 1).Fails .reuseDetected o ∧
      w.store.Descends (Sample.refreshId 2) (Sample.refreshId 1) ∧
      w.store.Revoked (Sample.refreshId 2) := by
  have hreach : Sample.exchanged.Reachable := ⟨Sample.world, _, rfl, by decide +kernel, rfl⟩
  obtain ⟨hquiet, hrot, hrev, hparent⟩ : Sample.exchanged.Quiet ∧
      Sample.exchanged.world.store.Rotated (Sample.refreshId 1) ∧
      ¬ Sample.exchanged.world.store.Revoked (Sample.refreshId 1) ∧
      (World.complete (Sample.exchange 1).operation Sample.exchanged.world
        fun _ => Sample.reply 3).2.store.parent? (Sample.refreshId 2)
          = some (Sample.refreshId 1) := by
    decide +kernel
  rcases ho : World.complete (Sample.exchange 1).operation Sample.exchanged.world
    (fun _ => Sample.reply 3) with ⟨o, w⟩
  rw [ho] at hparent
  -- the run need not be looked into any more
  generalize Sample.exchanged = s at *
  obtain ⟨r, hr, hrotated⟩ := hrot
  have hlive : r.revoked = false := by
    rcases h : r.revoked
    · rfl
    · exact absurd ⟨r, hr, h⟩ hrev
  obtain ⟨hreuse, -, hburned⟩ := replay_burns hreach hquiet hr hrotated (q := Sample.exchange 1) rfl
    (fun _ => rfl) ho
  have hdesc : w.store.Descends (Sample.refreshId 2) (Sample.refreshId 1) := .single hparent
  exact ⟨hreach, hquiet, ⟨r, hr, hrotated⟩, o, w, rfl, hreuse hlive, hdesc,
    (hburned (.inl hlive) _ hdesc).1⟩

/-- What is left when a token that was exchanged and then revoked comes back. -/
def Sample.replayed : World :=
  (World.complete (exchange 1).operation withdrawn.world fun _ => reply 4).2

/-- A token that has been exchanged and then revoked comes back, and its child can still be
exchanged. -/
theorem replay_after_revocation :
    Sample.withdrawn.Reachable ∧ Sample.withdrawn.Quiet ∧
    Sample.withdrawn.world.store.Rotated (Sample.refreshId 1) ∧
    Sample.replayed.store.Descends (Sample.refreshId 2) (Sample.refreshId 1) ∧
    ¬ Sample.replayed.store.Revoked (Sample.refreshId 2) ∧
    (Sample.exchange 2).succeeds
      (World.complete (Sample.exchange 2).operation Sample.replayed fun _ => Sample.reply 5).1 := by
  have hreach : Sample.exchanged.Reachable := ⟨Sample.world, _, rfl, by decide +kernel, rfl⟩
  obtain ⟨hquiet, hrot, hparent, hrev, hlast⟩ : Sample.withdrawn.Quiet ∧
      Sample.withdrawn.world.store.Rotated (Sample.refreshId 1) ∧
      Sample.replayed.store.parent? (Sample.refreshId 2) = some (Sample.refreshId 1) ∧
      ¬ Sample.replayed.store.Revoked (Sample.refreshId 2) ∧
      (Sample.exchange 2).succeeds (World.complete (Sample.exchange 2).operation Sample.replayed
        fun _ => Sample.reply 5).1 := by
    decide +kernel
  exact ⟨hreach.run (by decide +kernel), hquiet, hrot, .single hparent, hrev, hlast⟩

end TokenAuthority

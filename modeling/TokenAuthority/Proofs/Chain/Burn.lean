import TokenAuthority.Proofs.Chain.Head

/-!
# Burned chains

A request that comes too late with a refresh token burns its chain: it revokes the record and what
descends from it. Others may at that time be about to put further records into the chain. None of
these stays live either (`burned_chain_stays_burned`), and what is revoked is refused for good
(`refused_of_revoked`).
-/

namespace TokenAuthority

namespace Chain

open Phase

section Refusal

variable {x : String}

/-- A request that has put nothing in the store. -/
def Idle (x : String) (φ : Phase) : Prop :=
  φ = ready x ∨ φ = refused x ∨ φ = replayed x ∨ φ = burned x

/-- Such a request looks for the record, burns the chain, or does nothing. -/
theorem Idle.call {φ : Phase} {c : StoreCall} (h : Idle x φ) (hc : Allows φ c) (s : Store) :
    c = .getRecord x ∧ φ = ready x ∨ c = .revokeChain x ∧ φ = replayed x ∨
      (s.perform c).2 = s ∧ ∀ a, φ.next c a = φ := by
  cases c with
  | getRecord y => rcases h with rfl | rfl | rfl | rfl <;> simp_all [Allows]
  | revokeChain y => rcases h with rfl | rfl | rfl | rfl <;> simp_all [Allows]
  | createRecord | markRotated | revokeRecord | revokeByRefreshId | createCode | markCodeUsed =>
    rcases h with rfl | rfl | rfl | rfl <;> simp [Allows] at hc
  | _ => exact .inr (.inr ⟨rfl, fun _ => rfl⟩)

/-- A request for a record that is revoked before it looks. -/
def Late (s : Store) (x : String) (φ : Phase) : Prop :=
  s.Revoked x ∧ (φ = ready x ∨ φ = refused x)

theorem Late.perform {s : Store} {φ : Phase} {c : StoreCall} (h : Late s x φ) (hc : Allows φ c) :
    Late (s.perform c).2 x (φ.next c (s.perform c).1) := by
  obtain ⟨hx, hφ⟩ := h
  refine ⟨(s.extends_perform c).revoked hx, ?_⟩
  have hidle : Idle x φ := hφ.imp_right .inl
  rcases hidle.call hc s with ⟨rfl, rfl⟩ | ⟨-, rfl⟩ | ⟨-, hsame⟩
  · obtain ⟨r, hr, hrev⟩ := hx
    right
    show afterRead x (.ok (s.record? x)) = refused x
    rw [hr]
    exact if_pos hrev
  · simp at hφ
  · rwa [hsame]

/-- What is revoked is refused to whoever looks later, whatever comes in between. -/
theorem keeps_late (x : String) (n : Nat) :
    regime.Keeps (fun w ph => w.store.Revoked x ∧
      ∀ (i : Nat) φ, n ≤ i → ph[i]? = some φ → φ.key? = some x → Late w.store x φ)
      fun reply => reply.healthy := by
  refine Regime.Keeps.ofStore (R := regime) (K := fun s ph => s.Revoked x ∧
    ∀ (i : Nat) φ, n ≤ i → ph[i]? = some φ → φ.key? = some x → Late s x φ) rfl ?_ ?_ ?_ ?_
  · rintro s ph r ⟨hx, hlate⟩
    refine ⟨hx, fun i φ hn hi hkey => ?_⟩
    by_cases hφ : φ = start r
    · refine ⟨hx, .inl ?_⟩
      have hr : r.refreshId? = some x := by rw [← key?_start, ← hφ, hkey]
      rw [hφ, start, hr]
      rfl
    · exact hlate i φ hn (getElem?_of_append hi hφ) hkey
  · exact fun s ph clients users h => h
  · rintro s ph j ψ c ⟨hx, hlate⟩ hj hc
    have hx' := (s.extends_perform c).revoked hx
    refine ⟨hx', fun i φ hn hi hkey => ?_⟩
    rcases getElem?_set_cases hi with ⟨rfl, rfl⟩ | ⟨-, hi⟩
    · have hψ : ψ.key? = some x := (key?_next ψ (.store c) _ hc).symm.trans hkey
      exact (hlate j ψ hn hj hψ).perform hc
    · exact ⟨hx', (hlate i φ hn hi hkey).2⟩
  · intro reply e hok hf
    simp [Reply.healthy, hf] at hok

theorem refused_of_late {t : Thread} (h : regime.Lawful t) {w : World}
    (hlate : Late w.store x (regime.phase t)) {replies : Nat → Reply}
    (hr : ∀ n, (replies n).healthy) :
    ∃ m, t.request.Fails (.invalidGrant m) (World.complete t.rest w replies).1 := by
  obtain ⟨φ, hfits, -, hφ⟩ := Operation.Obeys.complete_store (K := fun s φ => Late s x φ)
    (fun s φ c h hc => h.perform hc) h.2 hlate hr
  rcases hφ with rfl | rfl
  · exact hfits.elim
  · exact hfits

end Refusal

/-- A request that has ended with the error of a reuse has burned the chain. -/
theorem burned_of_reuse {t : Thread} {x : String} (h : regime.Lawful t)
    (hx : t.request.refreshId? = some x) (ht : t.error? = some .reuseDetected) :
    regime.phase t = burned x := by
  have hfits := h.fits (Thread.done_of_error? ht)
  have hkey := (key?_phase h).trans hx
  rcases hp : regime.phase t <;> rw [hp] at hfits hkey
  case burned y =>
    obtain rfl : y = x := Option.some.inj hkey
    rfl
  case won => exact absurd (hfits.symm.trans (t.request.succeeds_error _)) nofun
  case refused => exact absurd (Request.eq_of_fails_error hfits.choose_spec) nofun
  case found | torn | failed => exact absurd rfl hfits.2
  case apart | revoking => cases hkey
  case ready | replayed | stored | beaten => exact hfits.elim

/-- If no exchange is pending, nothing is left of a burned chain. -/
theorem Sound.revoked_of_burned {s : Store} {ph : List Phase} {x y : String} (h : Sound s ph)
    (hquiet : ∀ x c, stored x c ∉ ph ∧ beaten x c ∉ ph) (hx : burned x ∈ ph)
    (hy : s.Descends y x) : s.Revoked y := by
  by_cases hrev : s.Revoked y
  · exact hrev
  rcases Relation.ReflTransGen.cases_tail hy with rfl | ⟨a, ha, hp⟩
  · exact h.backed _ hx
  · exact absurd hx (h.came hquiet hrev ha hp).1

end Chain

/-- A request for a revoked record that starts after its revocation is refused, whatever happens
until then and while it runs. -/
theorem refused_of_revoked {s : System} (hs : ∀ t ∈ s.threads, Chain.regime.Lawful t) {x : String}
    (hx : s.world.store.Revoked x) {later : List Move} (hlater : ∀ m ∈ later, m.healthy) {i : Nat}
    {t : Thread} (hn : s.threads.length ≤ i) (hi : (s.run later).threads[i]? = some t)
    (ht : t.request.refreshId? = some x) {replies : Nat → Reply} (hr : ∀ n, (replies n).healthy) :
    ∃ m, t.request.Fails (.invalidGrant m)
      (World.complete t.rest (s.run later).world replies).1 := by
  have hstart : ∀ (i : Nat) φ, s.threads.length ≤ i → (Chain.regime.phases s)[i]? = some φ →
      φ.key? = some x → Chain.Late s.world.store x φ := by
    intro i φ hn hi
    simp [Regime.phases, List.getElem?_eq_none hn] at hi
  have hkeep := (Chain.keeps_late x s.threads.length).run later hs ⟨hx, hstart⟩
    fun i reply hi => hlater _ hi
  have hlaw := Chain.regime.lawful_run later hs t (List.mem_of_getElem? hi)
  refine Chain.refused_of_late hlaw (hkeep.2 i _ hn ?_ ((Chain.key?_phase hlaw).trans ht)) hr
  simp [Regime.phases, hi]

/-- When a request has found a refresh token reused, nothing of its chain is live in any later state
in which no request for a refresh identifier is in flight, and requests for any of it are refused
from then on. -/
theorem burned_chain_stays_burned {s : System} (hs : s.Reachable) {t : Thread} (ht : t ∈ s.threads)
    {x : String} (hx : t.request.refreshId? = some x)
    (hreuse : t.error? = some .reuseDetected) (more : List Move)
    (hmore : ∀ m ∈ more, m.healthy) (hquiet : (s.run more).Quiet) {y : String}
    (hy : (s.run more).world.store.Descends y x) :
    (s.run more).world.store.Revoked y ∧
      ∀ (later : List Move) (i : Nat) (u : Thread) (replies : Nat → Reply),
        (∀ m ∈ later, m.healthy) → (s.run more).threads.length ≤ i →
        ((s.run more).run later).threads[i]? = some u → u.request.refreshId? = some y →
        (∀ n, (replies n).healthy) →
        ∃ m, u.request.Fails (.invalidGrant m)
          (World.complete u.rest ((s.run more).run later).world replies).1 := by
  have hs' := hs.run hmore
  have hdone : t.inFlight = false := by
    unfold Thread.inFlight
    rw [Thread.done_of_error? hreuse]
  obtain ⟨i, hi⟩ := List.mem_iff_getElem?.1 ht
  have ht' := List.mem_of_getElem? (System.getElem?_run more hi hdone)
  have hburned : .burned x ∈ Chain.regime.phases (s.run more) :=
    List.mem_map.2 ⟨t, ht', Chain.burned_of_reuse (hs'.lawful t ht') hx hreuse⟩
  have hrev := hs'.sound.revoked_of_burned (hs'.not_pending hquiet) hburned hy
  exact ⟨hrev, fun later i u replies hlater hn hi hu hr =>
    refused_of_revoked hs'.lawful hrev hlater hn hi hu hr⟩

/-- After a race for a refresh token the winner's own one is good for nothing. -/
theorem burned_chain_stays_burned_race :
    (∃ t ∈ Sample.raced.threads, t.request.refreshId? = some (Sample.refreshId 1) ∧
      t.error? = some .reuseDetected) ∧
    Sample.raced.Quiet ∧
    Sample.raced.world.store.Descends (Sample.refreshId 3) (Sample.refreshId 1) ∧
    Sample.raced.world.store.Revoked (Sample.refreshId 3) ∧
    ∃ m, (Sample.exchange 3).Fails (.invalidGrant m)
      (World.complete (Sample.exchange 3).operation Sample.raced.world
        fun _ => Sample.reply 4).1 := by
  have hreach : Sample.raced.Reachable := ⟨Sample.world, Sample.race, rfl, by decide +kernel, rfl⟩
  have hreuse : ∃ t ∈ Sample.raced.threads, t.request.refreshId? = some (Sample.refreshId 1) ∧
      t.error? = some .reuseDetected := by decide +kernel
  have hquiet : Sample.raced.Quiet := by decide +kernel
  have hdesc : Sample.raced.world.store.Descends (Sample.refreshId 3) (Sample.refreshId 1) :=
    .single (by decide +kernel)
  -- the run need not be looked into any more
  generalize Sample.raced = s at *
  obtain ⟨t, ht, hx, herror⟩ := hreuse
  obtain ⟨hrev, hrefused⟩ := burned_chain_stays_burned hreach ht hx herror []
    (fun _ hm => absurd hm List.not_mem_nil) hquiet hdesc
  obtain ⟨hworld, hlast⟩ := s.run_start (Sample.exchange 3)
  have hfails := hrefused [.start (Sample.exchange 3)] _ _ (fun _ => Sample.reply 4)
    (by decide) (Nat.le_refl _) hlast rfl fun _ => rfl
  rw [System.run_nil, hworld] at hfails
  exact ⟨⟨t, ht, hx, herror⟩, hquiet, hdesc, hrev, hfails⟩

end TokenAuthority

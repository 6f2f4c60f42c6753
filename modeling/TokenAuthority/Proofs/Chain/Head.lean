import TokenAuthority.Proofs.Chain.Invariant

/-!
# The live head of a chain

Of the requests that present one refresh identifier at most one gets tokens for it. While they run
there may be several live records in a chain. When none of them is in flight, there is at most one
(`single_winner_and_head`): the exchanges that led to a live record have all won, so that of two
live records in one chain one would descend from the other, which would be rotated then.
-/

namespace TokenAuthority

open Relation

/-- No two live records descend from one record. -/
def Store.SingleHead (s : Store) : Prop :=
  s.records.Pairwise fun a b => ∀ root, s.Descends a.refreshId root → s.Descends b.refreshId root →
    ¬ (a.live = true ∧ b.live = true)

/-- No request is in flight that presents a refresh identifier. -/
def System.Quiet (s : System) : Prop :=
  ∀ t ∈ s.threads, t.request.refreshId? ≠ none → t.inFlight = false

instance (s : System) : Decidable s.Quiet :=
  inferInstanceAs (Decidable (∀ t ∈ s.threads, t.request.refreshId? ≠ none → t.inFlight = false))

namespace Chain

open Phase

section Ends

variable {t : Thread} {x : String}

theorem won_of_succeeded (h : regime.Lawful t) (hx : t.request.refreshId? = some x)
    (ht : t.succeeded) : ∃ c, regime.phase t = won x c := by
  obtain ⟨o, ho, hs⟩ := t.exists_done_of_succeeded ht
  have hfits := h.fits ho
  have hkey := (key?_phase h).trans hx
  rcases hp : regime.phase t <;> rw [hp] at hfits hkey
  case won y c =>
    obtain rfl : y = x := Option.some.inj hkey
    exact ⟨c, rfl⟩
  case burned => exact absurd hfits (Request.not_fails_of_succeeds hs)
  case refused => exact absurd hfits.choose_spec (Request.not_fails_of_succeeds hs)
  case found | torn | failed => exact absurd hs hfits.1
  case apart | revoking => cases hkey
  case ready | replayed | stored | beaten => exact hfits.elim

/-- An exchange that is not in flight has settled its child. -/
theorem phase_not_pending (h : regime.Lawful t)
    (ht : t.request.refreshId? ≠ none → t.inFlight = false) (c : String) :
    regime.phase t ≠ stored x c ∧ regime.phase t ≠ beaten x c := by
  have hpending : ∀ φ, φ.key? = some x → (∀ o, ¬ Fits t.request φ o) → regime.phase t ≠ φ := by
    rintro _ hkey hnot rfl
    have hx : t.request.refreshId? = some x := (key?_phase h).symm.trans hkey
    obtain ⟨o, ho⟩ := t.exists_done (ht (hx ▸ nofun))
    exact hnot o (h.fits ho)
  exact ⟨hpending _ rfl fun o h => h, hpending _ rfl fun o h => h⟩

end Ends

section Quiet

variable {s : Store} {ph : List Phase} {y z root : String}

/-- A record that came from an exchange that has won. -/
def Came (s : Store) (ph : List Phase) (a p : String) : Prop :=
  s.parent? a = some p ∧ won p a ∈ ph

/-- If no exchange is pending, all exchanges that led to a record that is not revoked have won. -/
theorem Sound.came (h : Sound s ph) (hquiet : ∀ x c, stored x c ∉ ph ∧ beaten x c ∉ ph)
    (hy : ¬ s.Revoked y) {a p : String} (ha : s.Descends y a) (hp : s.parent? a = some p) :
    burned p ∉ ph ∧ won p a ∈ ph := by
  rcases h.settled y hy with ⟨b, -, x, hx | ⟨hx, -⟩⟩ | hset
  · exact absurd hx (hquiet x b).2
  · exact absurd hx (hquiet x b).1
  · obtain ⟨hb, hw⟩ := hset a p ha hp
    exact ⟨hb, hw.resolve_left (hquiet p a).1⟩

theorem Sound.reflTransGen_came (h : Sound s ph)
    (hquiet : ∀ x c, stored x c ∉ ph ∧ beaten x c ∉ ph) (hy : ¬ s.Revoked y)
    (hd : s.Descends y root) : ReflTransGen (Came s ph) y root := by
  have hcame : ∀ a p, s.Descends y a → s.parent? a = some p → Came s ph a p :=
    fun a p ha hp => ⟨hp, (h.came hquiet hy ha hp).2⟩
  clear hy
  induction hd using ReflTransGen.head_induction_on with
  | refl => exact .refl
  | @head y p hp _ ih =>
    exact .head (hcame y p .refl hp) (ih fun a q ha hq => hcame a q (.head hp ha) hq)

/-- A record is followed by the child of one exchange at most that has won. -/
theorem Sound.rightUnique_came (h : Sound s ph) :
    Relator.RightUnique (Function.swap (Came s ph)) := by
  rintro p a b ⟨-, ha⟩ ⟨-, hb⟩
  obtain ⟨i, hi⟩ := List.mem_iff_getElem?.1 ha
  obtain ⟨j, hj⟩ := List.mem_iff_getElem?.1 hb
  obtain rfl := h.once hi hj
  exact (Phase.won.inj (Option.some.inj (hi.symm.trans hj))).2

/-- Nothing came from a live record. -/
theorem Sound.eq_of_came (h : Sound s ph) (hy : s.Live y)
    (hz : ReflTransGen (Came s ph) z y) : z = y := by
  rcases ReflTransGen.cases_tail hz with he | ⟨a, -, -, ha⟩
  · exact he.symm
  · exact absurd (h.backed _ ha).2 (Store.live_iff.1 hy).2.2

theorem Sound.eq_of_live (h : Sound s ph) (hquiet : ∀ x c, stored x c ∉ ph ∧ beaten x c ∉ ph)
    (hy : s.Live y) (hz : s.Live z) (hyr : s.Descends y root) (hzr : s.Descends z root) :
    y = z := by
  have hy' := h.reflTransGen_came hquiet (Store.live_iff.1 hy).2.1 hyr
  have hz' := h.reflTransGen_came hquiet (Store.live_iff.1 hz).2.1 hzr
  rcases ReflTransGen.total_of_right_unique h.rightUnique_came
    (reflTransGen_swap.2 hy') (reflTransGen_swap.2 hz') with hzy | hyz
  · exact (h.eq_of_came hy (reflTransGen_swap.1 hzy)).symm
  · exact h.eq_of_came hz (reflTransGen_swap.1 hyz)

theorem Sound.singleHead (h : Sound s ph)
    (hquiet : ∀ x c, stored x c ∉ ph ∧ beaten x c ∉ ph) : s.SingleHead := by
  have hids : s.records.Pairwise fun a b => a.refreshId ≠ b.refreshId := by
    have hkeyed := h.keyed
    unfold Store.Keyed Store.links at hkeyed
    rw [List.map_map] at hkeyed
    exact List.pairwise_map.1 hkeyed
  refine hids.imp_of_mem fun {a b} ha hb hne root har hbr hlive => hne ?_
  exact h.eq_of_live hquiet ⟨a, h.keyed.record? ha, hlive.1⟩ ⟨b, h.keyed.record? hb, hlive.2⟩
    har hbr

end Quiet

end Chain

theorem System.Reachable.not_pending {s : System} (hs : s.Reachable) (hquiet : s.Quiet)
    (x c : String) : .stored x c ∉ Chain.regime.phases s ∧ .beaten x c ∉ Chain.regime.phases s := by
  constructor
  · intro hx
    obtain ⟨t, ht, hp⟩ := List.mem_map.1 hx
    exact (Chain.phase_not_pending (hs.lawful t ht) (hquiet t ht) c).1 hp
  · intro hx
    obtain ⟨t, ht, hp⟩ := List.mem_map.1 hx
    exact (Chain.phase_not_pending (hs.lawful t ht) (hquiet t ht) c).2 hp

/-- Whatever the order of the calls of any requests: for each refresh identifier at most one request
succeeds, and when no request for any refresh identifier is in flight, each chain has at most one
live record. -/
theorem single_winner_and_head {s : System} (hs : s.Reachable) :
    (∀ (i j : Nat) (t u : Thread) (x : String), s.threads[i]? = some t → s.threads[j]? = some u →
      t.request.refreshId? = some x → u.request.refreshId? = some x →
      t.succeeded → u.succeeded → i = j) ∧
    (s.Quiet → s.world.store.SingleHead) := by
  constructor
  · intro i j t u x hi hj htx hux ht hu
    obtain ⟨c, hc⟩ := Chain.won_of_succeeded (hs.lawful t (List.mem_of_getElem? hi)) htx ht
    obtain ⟨d, hd⟩ := Chain.won_of_succeeded (hs.lawful u (List.mem_of_getElem? hj)) hux hu
    refine hs.sound.once (x := x) (c := c) (d := d) ?_ ?_
    · simp [Regime.phases, hi, hc]
    · simp [Regime.phases, hj, hd]
  · exact fun hquiet => hs.sound.singleHead (hs.not_pending hquiet)

/-- Of two requests that race for one refresh token the first to mark it gets tokens, and the other
leaves no record live. -/
theorem single_winner_and_head_race :
    Sample.raced.Reachable ∧ Sample.raced.threads.map Thread.succeeded = [true, false, true] ∧
      Sample.raced.Quiet ∧ Sample.raced.world.store.SingleHead := by
  have hreach : Sample.raced.Reachable := ⟨Sample.world, Sample.race, rfl, by decide +kernel, rfl⟩
  have hquiet : Sample.raced.Quiet := by decide +kernel
  exact ⟨hreach, by decide +kernel, hquiet, (single_winner_and_head hreach).2 hquiet⟩

end TokenAuthority

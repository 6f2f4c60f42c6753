import Mathlib.Data.List.Induction
import TokenAuthority.Proofs.Discipline

/-!
# Moments of a run

What the requests of a run have done up to its end was done at moments of the run: each call that a
request has made was answered by the world of its moment (`System.exists_moment`), and a call that
was made at a moment is kept with its answer (`System.mem_past_of_moment`).
-/

namespace TokenAuthority

def Move.request? : Move → Option Request
  | start q => some q
  | _ => none

/-- A call leaves the store, or is a call of the store that this performs. -/
theorem World.store_perform (reply : Reply) (w : World) (c : Call) :
    (w.perform reply c).2.store = w.store ∨
      ∃ c', c = .store c' ∧ (w.perform reply c).2.store = (w.store.perform c').2 := by
  cases c with
  | store c =>
    unfold World.perform
    rcases reply.storeFailure with _ | e
    · exact .inr ⟨c, rfl, rfl⟩
    · exact .inl rfl
  | generateKey =>
    unfold World.perform
    rcases reply.keyFailure with _ | e <;> exact .inl rfl
  | _ => exact .inl rfl

namespace System

section Moments

/-- A request is about to make a call. -/
def Makes (s : System) (i : Nat) (q : Request) (c : Call) : Prop :=
  ∃ t, s.threads[i]? = some t ∧ t.request = q ∧ ∃ next, t.rest = .call c next

theorem run_append (s : System) (moves later : List Move) :
    s.run (moves ++ later) = (s.run moves).run later := List.foldl_append

theorem run_concat (s : System) (moves : List Move) (m : Move) :
    s.run (moves ++ [m]) = (s.run moves).move m := s.run_append moves [m]

/-- A request after a move has just been started, or is as it was, or the move was its own. -/
theorem getElem?_of_move {s : System} {m : Move} {i : Nat} {t : Thread}
    (hi : (s.move m).threads[i]? = some t) : (∃ q, t = .start q) ∨ s.threads[i]? = some t ∨
      ∃ reply u, m = .step i reply ∧ s.threads[i]? = some u ∧ t = (u.step reply s.world).1 := by
  cases m with
  | start q =>
    by_cases ht : t = .start q
    · exact .inl ⟨q, ht⟩
    · exact .inr (.inl (getElem?_of_append hi ht))
  | step j reply =>
    unfold move at hi
    dsimp only at hi
    split at hi
    · exact .inr (.inl hi)
    · rename_i u hu
      rcases getElem?_set_cases hi with ⟨rfl, rfl⟩ | ⟨-, hi⟩
      · exact .inr (.inr ⟨reply, u, rfl, hu, rfl⟩)
      · exact .inr (.inl hi)
  | _ => exact .inr (.inl hi)

/-- Each call that a request has made was answered by the world at some moment. -/
theorem exists_moment {w : World} {moves : List Move} {i : Nat} {t : Thread} {c : Call}
    {a : c.Answer} (hi : ((start w).run moves).threads[i]? = some t) (he : ⟨c, a⟩ ∈ t.past) :
    ∃ before reply after, moves = before ++ .step i reply :: after ∧
      ((start w).run before).Makes i t.request c ∧
      a = (((start w).run before).world.perform reply c).1 := by
  induction moves using List.reverseRecOn generalizing t with
  | nil => cases hi
  | append_singleton moves m ih =>
    have hearlier : ∀ {u : Thread}, ((start w).run moves).threads[i]? = some u →
        ⟨c, a⟩ ∈ u.past → u.request = t.request →
        ∃ before reply after, moves ++ [m] = before ++ .step i reply :: after ∧
          ((start w).run before).Makes i t.request c ∧
          a = (((start w).run before).world.perform reply c).1 := by
      rintro u hu he hr
      obtain ⟨before, reply, after, rfl, hmakes, ha⟩ := ih hu he
      exact ⟨before, reply, after ++ [m], by simp, hr ▸ hmakes, ha⟩
    rw [run_concat] at hi
    rcases getElem?_of_move hi with ⟨q, rfl⟩ | hi | ⟨reply, u, rfl, hu, rfl⟩
    · exact absurd he List.not_mem_nil
    · exact hearlier hi he rfl
    -- The last move was the request's own: the call is the one it made then, or an earlier one.
    obtain ⟨q, past, o | ⟨c', next⟩⟩ := u
    · exact hearlier hu he rfl
    · rcases List.mem_append.1 he with he | he
      · exact hearlier hu he rfl
      · cases List.mem_singleton.1 he
        exact ⟨moves, reply, [], rfl, ⟨_, hu, rfl, next, rfl⟩, rfl⟩

/-- A request stays the same, and the calls that it has made stay made. -/
theorem exists_getElem?_move {s : System} {i : Nat} {t : Thread} (hi : s.threads[i]? = some t)
    (m : Move) : ∃ u, (s.move m).threads[i]? = some u ∧ u.request = t.request ∧
      t.past ⊆ u.past := by
  cases m with
  | start q =>
    refine ⟨t, ?_, rfl, List.Subset.refl _⟩
    exact (List.getElem?_append_left (List.getElem?_eq_some_iff.1 hi).1).trans hi
  | step j reply =>
    unfold move
    dsimp only
    split
    · exact ⟨t, hi, rfl, List.Subset.refl _⟩
    · rename_i u hj
      by_cases hij : j = i
      · subst hij
        obtain rfl : t = u := Option.some.inj (hi.symm.trans hj)
        refine ⟨_, List.getElem?_set_self (List.getElem?_eq_some_iff.1 hi).1, ?_⟩
        obtain ⟨q, past, o | ⟨c, next⟩⟩ := t
        · exact ⟨rfl, List.Subset.refl _⟩
        · exact ⟨rfl, List.subset_append_left _ _⟩
      · exact ⟨t, (List.getElem?_set_ne hij).trans hi, rfl, List.Subset.refl _⟩
  | _ => exact ⟨t, hi, rfl, List.Subset.refl _⟩

theorem exists_getElem?_run : ∀ (moves : List Move) {s : System} {i : Nat} {t : Thread},
    s.threads[i]? = some t → ∃ u, (s.run moves).threads[i]? = some u ∧ u.request = t.request ∧
      t.past ⊆ u.past
  | [], _, _, t, hi => ⟨t, hi, rfl, List.Subset.refl _⟩
  | m :: moves, _, _, _, hi => by
    obtain ⟨u, hu, hrequest, hpast⟩ := exists_getElem?_move hi m
    obtain ⟨v, hv, hrequest', hpast'⟩ := exists_getElem?_run moves hu
    exact ⟨v, hv, hrequest'.trans hrequest, List.Subset.trans hpast hpast'⟩

/-- A call that was made at some moment is among those that the request has made. -/
theorem mem_past_of_moment {s : System} {reply : Reply} {after : List Move} {i : Nat}
    {q : Request} {past : List Event} {c : Call} {next : c.Answer → Operation q.Result} {t : Thread}
    (hu : s.threads[i]? = some ⟨q, past, .call c next⟩)
    (hi : (s.run (.step i reply :: after)).threads[i]? = some t) :
    ⟨c, (s.world.perform reply c).1⟩ ∈ t.past := by
  have hmove : (s.move (.step i reply)).threads[i]? =
      some ⟨q, past ++ [⟨c, (s.world.perform reply c).1⟩], next (s.world.perform reply c).1⟩ := by
    unfold move
    dsimp only
    rw [hu]
    exact List.getElem?_set_self (List.getElem?_eq_some_iff.1 hu).1
  obtain ⟨v, hv, -, hpast⟩ := exists_getElem?_run after hmove
  obtain rfl : t = v := Option.some.inj (hi.symm.trans hv)
  exact hpast (List.mem_append_right _ List.mem_cons_self)

theorem requests_move (s : System) (m : Move) : (s.move m).threads.map Thread.request =
    s.threads.map Thread.request ++ m.request?.toList := by
  cases m with
  | start q =>
    unfold move
    rw [List.map_append]
    rfl
  | step i reply =>
    have hstep : ∀ t : Thread, (t.step reply s.world).1.request = t.request := by
      rintro ⟨q, past, o | ⟨c, next⟩⟩ <;> rfl
    unfold move
    dsimp only
    split
    · exact (List.append_nil _).symm
    · rename_i t hi
      have ht : (s.threads.map Thread.request)[i]? = some t.request := by
        rw [List.getElem?_map, hi, Option.map_some]
      rw [List.map_set, hstep, set_eq_self ht]
      exact (List.append_nil _).symm
  | _ => exact (List.append_nil _).symm

/-- The requests of a run are those that were started, in their order. -/
theorem requests_run : ∀ (moves : List Move) (s : System),
    (s.run moves).threads.map Thread.request =
      s.threads.map Thread.request ++ moves.filterMap Move.request?
  | [], _ => (List.append_nil _).symm
  | m :: moves, s => by
    refine (requests_run moves (s.move m)).trans ?_
    rw [requests_move, List.append_assoc, List.filterMap_cons]
    rcases m.request? with _ | q <;> rfl

theorem start_mem {w : World} {moves : List Move} {t : Thread}
    (ht : t ∈ ((start w).run moves).threads) : .start t.request ∈ moves := by
  have hrequest := List.mem_map_of_mem (f := Thread.request) ht
  rw [requests_run, start, List.map_nil, List.nil_append] at hrequest
  obtain ⟨m, hm, hq⟩ := List.mem_filterMap.1 hrequest
  cases m with
  | start q => exact Option.some.inj hq ▸ hm
  | _ => cases hq

theorem move_step {s : System} {i : Nat} {t : Thread} (hi : s.threads[i]? = some t)
    (reply : Reply) : s.move (.step i reply) =
      ⟨(t.step reply s.world).2, s.threads.set i (t.step reply s.world).1⟩ := by
  unfold move
  dsimp only
  rw [hi]

/-- A move changes registrations, or has the store perform a call that a request makes. -/
theorem store_move (s : System) (m : Move) :
    (∃ clients users, (s.move m).world.store = { s.world.store with clients, users }) ∨
    ∃ i reply q c, m = .step i reply ∧ s.Makes i q (.store c) ∧
      (s.move m).world.store = (s.world.store.perform c).2 := by
  have hsame : ∀ s' : Store, s' = s.world.store →
      ∃ clients users, s' = { s.world.store with clients, users } := by
    rintro s' rfl
    exact ⟨_, _, rfl⟩
  cases m with
  | step i reply =>
    rcases hi : s.threads[i]? with _ | t
    · refine .inl (hsame _ ?_)
      unfold move
      dsimp only
      rw [hi]
    rw [move_step hi]
    obtain ⟨q, past, o | ⟨c, next⟩⟩ := t
    · exact .inl (hsame _ rfl)
    rcases World.store_perform reply s.world c with hstore | ⟨c, rfl, hstore⟩
    · exact .inl (hsame _ hstore)
    · exact .inr ⟨i, reply, q, c, rfl, ⟨_, hi, rfl, next, rfl⟩, hstore⟩
  | start q => exact .inl (hsame _ rfl)
  | putClient c => exact .inl ⟨(s.world.store.putClient c).clients, s.world.store.users, rfl⟩
  | removeClient id =>
    exact .inl ⟨(s.world.store.removeClient id).2.clients, s.world.store.users, rfl⟩
  | putUser u => exact .inl ⟨s.world.store.clients, (s.world.store.putUser u).users, rfl⟩

/-- What holds of a store holds of it after any moves, if registrations make no difference to it
and each call that a request makes in the run keeps it. -/
theorem store_run {w : World} {K : Store → Prop} (hw : K w.store)
    (hregister : ∀ s clients users, K s → K { s with clients, users })
    (hcall : ∀ moves i q c, ((start w).run moves).Makes i q (.store c) →
      K ((start w).run moves).world.store →
      K (((start w).run moves).world.store.perform c).2) (moves : List Move) :
    K ((start w).run moves).world.store := by
  induction moves using List.reverseRecOn with
  | nil => exact hw
  | append_singleton moves m ih =>
    rw [run_concat]
    rcases store_move ((start w).run moves) m with ⟨clients, users, hs⟩ | ⟨i, _, q, c, -, hi, hs⟩
    · rw [hs]
      exact hregister _ clients users ih
    · rw [hs]
      exact hcall moves i q c hi ih

end Moments

end System

/-- Each call that a request makes is allowed in its phase. -/
theorem Regime.allows_of_makes {Φ : Type} (R : Regime Φ) {w : World} {moves : List Move} {i : Nat}
    {q : Request} {c : Call} (h : ((System.start w).run moves).Makes i q c) :
    ∃ t, ((System.start w).run moves).threads[i]? = some t ∧ t.request = q ∧
      R.Lawful t ∧ R.discipline.allows (R.phase t) c := by
  obtain ⟨t, hi, hq, next, hrest⟩ := h
  have hlaw := R.lawful_of_start w moves t (List.mem_of_getElem? hi)
  have hrestlaw := hlaw.2
  rw [hrest] at hrestlaw
  exact ⟨t, hi, hq, hlaw, hrestlaw.1⟩

end TokenAuthority

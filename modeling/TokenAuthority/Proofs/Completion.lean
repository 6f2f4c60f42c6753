import TokenAuthority.Proofs.Calls

/-!
# Operations by themselves

What an operation does that runs without any other in between, for every row of replies of some
kind: how it ends, the world that it leaves, and the calls of the store that it has made
(`Operation.Ensures`, `Ensures.complete`). The rules follow the way operations are put together, so
that each operation has one specification and those that use it need not look into it.
-/

namespace TokenAuthority

open Operation Time

variable {α β : Type}

/-- A call of the store, with its answer. -/
abbrev StoreEvent : Type := (c : StoreCall) × Except StoreError c.Result

def Event.store? : Event → Option StoreEvent
  | ⟨.store c, a⟩ => some ⟨c, a⟩
  | _ => none

deriving instance DecidableEq for Outcome

/-- How an operation ends, whatever its result. -/
def Outcome.kind : Outcome α → Outcome Unit
  | .ok _ => .ok ()
  | .error e => .error e
  | .overflow => .overflow

def Outcome.ofExcept : Except TokenError α → Outcome α
  | .ok a => .ok a
  | .error e => .error e

/-- The record that a call was to store. -/
def StoreEvent.record? : StoreEvent → Option TokenRecord
  | ⟨.createRecord r, _⟩ => some r
  | _ => none

/-- The records that were to be stored have identifiers that no record of the store has. -/
def Store.Fresh (s : Store) (past : List StoreEvent) : Prop :=
  ∀ r ∈ past.filterMap StoreEvent.record?, ∀ r' ∈ s.records,
    r'.refreshId ≠ r.refreshId ∧ r'.id ≠ r.id

instance (s : Store) (past : List StoreEvent) : Decidable (s.Fresh past) :=
  inferInstanceAs (Decidable (∀ r ∈ past.filterMap StoreEvent.record?, ∀ r' ∈ s.records,
    r'.refreshId ≠ r.refreshId ∧ r'.id ≠ r.id))

theorem Store.Fresh.mono {s : Store} {past later : List StoreEvent} (h : past ⊆ later)
    (hfresh : s.Fresh later) : s.Fresh past := fun r hr =>
  hfresh r (List.filterMap_subset _ h hr)

theorem Outcome.kind_eq_ok {o : Outcome α} : o.kind = .ok () ↔ ∃ a, o = .ok a := by
  cases o <;> simp [kind]

theorem Outcome.kind_eq_error {o : Outcome α} {e : TokenError} :
    o.kind = .error e ↔ o = .error e := by
  cases o <;> simp [kind]

namespace World

/-- The calls of the store that an operation makes. -/
def calls : Operation α → World → (Nat → Reply) → List StoreEvent
  | .done _, _, _ => []
  | .call c next, w, replies =>
    (Event.store? ⟨c, (w.perform (replies 0) c).1⟩).toList ++
      calls (next (w.perform (replies 0) c).1) (w.perform (replies 0) c).2 fun n => replies (n + 1)

theorem complete_eq {x : Operation α} {w : World} {replies : Nat → Reply} {o : Outcome α}
    (h : (complete x w replies).1 = o) : complete x w replies = (o, (complete x w replies).2) := by
  rw [← h]

end World

/-- Among replies of a kind are some that make the store fail. -/
def Fallible (G : Reply → Prop) : Prop := ∃ reply e, G reply ∧ reply.storeFailure = some e

theorem not_fallible_healthy : ¬ Fallible fun reply => reply.healthy := by
  rintro ⟨reply, e, hr, hf⟩
  simp [Reply.healthy, hf] at hr

/-- The world that a call of a working store leaves. -/
def World.after (w : World) (c : StoreCall) : World := { w with store := (w.store.perform c).2 }

/-- Some calls have left a store, and no others than meters have changed besides. -/
structure World.Leaves (w : World) (s : Store) (w' : World) : Prop where
  store : w'.store = s
  ring : w'.ring = w.ring

namespace Operation

/-- Whatever the replies of a kind, the end, the world that is left and the calls of the store that
were made are as they should be. -/
def Ensures (G : Reply → Prop) : Operation α → World →
    (Outcome α → World → List StoreEvent → Prop) → Prop
  | done o, w, Q => Q o w []
  | call c next, w, Q => ∀ reply, G reply →
    (next (w.perform reply c).1).Ensures G (w.perform reply c).2 fun o w' past =>
      Q o w' ((Event.store? ⟨c, (w.perform reply c).1⟩).toList ++ past)

section Laws

variable {G : Reply → Prop} {w : World}

theorem Ensures.mono {P Q : Outcome α → World → List StoreEvent → Prop} :
    ∀ {x : Operation α} {w : World}, (∀ o w' past, P o w' past → Q o w' past) →
      x.Ensures G w P → x.Ensures G w Q
  | done _, _, h, hx => h _ _ _ hx
  | call _ _, _, h, hx => fun reply hr => (hx reply hr).mono fun _ _ _ => h _ _ _

theorem Ensures.and {P Q : Outcome α → World → List StoreEvent → Prop} :
    ∀ {x : Operation α} {w : World}, x.Ensures G w P → x.Ensures G w Q →
      x.Ensures G w fun o w' past => P o w' past ∧ Q o w' past
  | done _, _, hP, hQ => ⟨hP, hQ⟩
  | call _ _, _, hP, hQ => fun reply hr => (hP reply hr).and (hQ reply hr)

theorem ensures_bind (f : α → Operation β) :
    ∀ (x : Operation α) (w : World) (Q : Outcome β → World → List StoreEvent → Prop),
      (x >>= f).Ensures G w Q ↔ x.Ensures G w fun o w' past =>
        o.AndThen (fun o => Q o w' past) fun a =>
          (f a).Ensures G w' fun o w'' later => Q o w'' (past ++ later)
  | done (.ok _), _, _ => Iff.rfl
  | done (.error _), _, _ => Iff.rfl
  | done .overflow, _, _ => Iff.rfl
  | call c next, w, Q => by
    refine forall₂_congr fun reply _ => ?_
    exact (ensures_bind f _ _ _).trans (by simp only [List.append_assoc])

theorem ensures_attempt : ∀ (x : Operation α) (w : World)
    (Q : Outcome (Except TokenError α) → World → List StoreEvent → Prop),
    x.attempt.Ensures G w Q ↔ x.Ensures G w fun o w' past => o.Attempted fun o => Q o w' past
  | done (.ok _), _, _ => Iff.rfl
  | done (.error _), _, _ => Iff.rfl
  | done .overflow, _, _ => Iff.rfl
  | call _ next, _, _ => forall₂_congr fun _ _ => ensures_attempt (next _) _ _

/-- What is ensured holds of each row of replies. -/
theorem Ensures.complete {Q : Outcome α → World → List StoreEvent → Prop} :
    ∀ {x : Operation α} {w : World} {replies : Nat → Reply}, x.Ensures G w Q →
      (∀ n, G (replies n)) →
      Q (World.complete x w replies).1 (World.complete x w replies).2 (World.calls x w replies)
  | done _, _, _, hx, _ => hx
  | call _ _, _, _, hx, hr => (hx _ (hr 0)).complete fun n => hr (n + 1)

theorem Ensures.complete_any {Q : Outcome α → World → List StoreEvent → Prop} {x : Operation α}
    {w : World} (hx : x.Ensures (fun _ => True) w Q) (replies : Nat → Reply) :
    Q (World.complete x w replies).1 (World.complete x w replies).2 (World.calls x w replies) :=
  hx.complete fun _ => trivial

end Laws

theorem ensures_true {G : Reply → Prop} :
    ∀ (x : Operation α) (w : World), x.Ensures G w fun _ _ _ => True
  | done _, _ => trivial
  | call _ _, _ => fun _ _ => (ensures_true _ _).mono fun _ _ _ _ => trivial

section Rules

variable {G : Reply → Prop} {w : World} {Q : Outcome β → World → List StoreEvent → Prop}

theorem Ensures.bind {P : Outcome α → World → List StoreEvent → Prop} {x : Operation α}
    {f : α → Operation β} (hx : x.Ensures G w P)
    (h : ∀ o w' past, P o w' past → o.AndThen (fun o => Q o w' past) fun a =>
      (f a).Ensures G w' fun o w'' later => Q o w'' (past ++ later)) :
    (x >>= f).Ensures G w Q :=
  (ensures_bind f x w Q).2 (hx.mono h)

theorem Ensures.attempt {P : Outcome α → World → List StoreEvent → Prop} {x : Operation α}
    {f : Except TokenError α → Operation β} (hx : x.Ensures G w P)
    (hok : ∀ a w' past, P (.ok a) w' past →
      (f (.ok a)).Ensures G w' fun o w'' later => Q o w'' (past ++ later))
    (herror : ∀ e w' past, P (.error e) w' past →
      (f (.error e)).Ensures G w' fun o w'' later => Q o w'' (past ++ later))
    (hoverflow : ∀ w' past, P .overflow w' past → Q .overflow w' past) :
    (x.attempt >>= f).Ensures G w Q := by
  refine (ensures_bind f _ w Q).2 ((ensures_attempt x w _).2 (hx.mono ?_))
  rintro (a | e | _) w' past h
  · exact hok a w' past h
  · exact herror e w' past h
  · exact hoverflow w' past h

theorem Ensures.ofExcept {x : Except TokenError α} {f : α → Operation β}
    (hok : ∀ a, x = .ok a → (f a).Ensures G w Q) (herror : ∀ e, x = .error e → Q (.error e) w []) :
    (Operation.ofExcept x >>= f).Ensures G w Q := by
  rcases x with e | a
  · exact herror e rfl
  · exact hok a rfl

theorem Ensures.after {now : Instant} {lifetime : Duration} {f : Instant → Operation β}
    (h : ∀ t, now.after lifetime = some t → (f t).Ensures G w Q)
    (hoverflow : now.after lifetime = none → Q .overflow w []) :
    (Operation.after now lifetime >>= f).Ensures G w Q := by
  unfold Operation.after
  rcases ht : now.after lifetime with _ | t
  · exact hoverflow ht
  · exact h t ht

theorem Ensures.random {n : Nat} {f : Vector UInt8 n → Operation β}
    (h : ∀ bytes, (f bytes).Ensures G w Q) : (ask (.random n) >>= f).Ensures G w Q :=
  fun reply _ => h (reply.bytes n)

theorem Ensures.clock {f : Timestamp → Operation β}
    (h : ∀ reply, G reply → (f reply.clock).Ensures G w Q) : (ask .clock >>= f).Ensures G w Q := h

theorem Ensures.ring {f : KeyRing → Operation β} (h : (f w.ring).Ensures G w Q) :
    (ask .ring >>= f).Ensures G w Q := fun _ _ => h

theorem Ensures.count {counter : Counter} {n : Nat} {f : Unit → Operation β}
    (h : (f ()).Ensures G { w with meters := w.meters.add counter n } Q) :
    (ask (.count counter n) >>= f).Ensures G w Q := fun _ _ => h

theorem Ensures.tryStore {c : StoreCall} {f : Except StoreError c.Result → Operation β}
    (hfail : Fallible G → ∀ e, (f (.error e)).Ensures G w fun o w' past =>
      Q o w' (⟨c, .error e⟩ :: past))
    (h : (f (w.store.perform c).1).Ensures G (w.after c) fun o w' past =>
      Q o w' (⟨c, (w.store.perform c).1⟩ :: past)) :
    (Operation.tryStore c >>= f).Ensures G w Q := by
  intro reply hr
  dsimp only [World.perform]
  rcases hf : reply.storeFailure with _ | e
  · exact h
  · exact hfail ⟨reply, e, hr, hf⟩ e

/-- A call that a working store answers with a result. -/
theorem Ensures.ofStore {c : StoreCall} {f : c.Result → Operation β} {r : c.Result}
    (hok : (w.store.perform c).1 = .ok r)
    (hfail : Fallible G → ∀ e, Q (.error (.ofStore e)) w [⟨c, .error e⟩])
    (h : (f r).Ensures G (w.after c) fun o w' past => Q o w' (⟨c, .ok r⟩ :: past)) :
    (Operation.ofStore c >>= f).Ensures G w Q := by
  refine Ensures.tryStore
    (f := fun answer => Operation.ofExcept (answer.mapError .ofStore) >>= f) hfail ?_
  rw [hok]
  exact h

/-- A call that the store refuses even if it works. -/
theorem Ensures.refused {c : StoreCall} {f : c.Result → Operation β} {e : StoreError}
    (herror : (w.store.perform c).1 = .error e)
    (hfail : Fallible G → ∀ e, Q (.error (.ofStore e)) w [⟨c, .error e⟩])
    (h : Q (.error (.ofStore e)) (w.after c) [⟨c, .error e⟩]) :
    (Operation.ofStore c >>= f).Ensures G w Q := by
  refine Ensures.tryStore
    (f := fun answer => Operation.ofExcept (answer.mapError .ofStore) >>= f) hfail ?_
  rw [herror]
  exact h

/-- If the store works throughout, a call has no other answer than the store's own. -/
theorem Ensures.answered {c : StoreCall} {f : c.Result → Operation β} {r : c.Result} {s : Store}
    (hok : w.store.perform c = (.ok r, s))
    (h : (f r).Ensures (·.healthy) { w with store := s } fun o w' past =>
      Q o w' (⟨c, .ok r⟩ :: past)) :
    (Operation.ofStore c >>= f).Ensures (·.healthy) w Q := by
  refine .ofStore (by rw [hok]) (fun hG => absurd hG not_fallible_healthy) ?_
  rwa [World.after, hok]

theorem Ensures.declined {c : StoreCall} {f : c.Result → Operation β} {e : StoreError} {s : Store}
    (herror : w.store.perform c = (.error e, s))
    (h : Q (.error (.ofStore e)) { w with store := s } [⟨c, .error e⟩]) :
    (Operation.ofStore c >>= f).Ensures (·.healthy) w Q := by
  refine .refused (by rw [herror]) (fun hG => absurd hG not_fallible_healthy) ?_
  rwa [World.after, herror]

/-- An operation without calls of the store leaves the store. -/
theorem Ensures.of_quiet {K : Outcome α → Prop} : ∀ {x : Operation α} {w : World},
    x.Obeys .quiet (fun _ => K) () →
    x.Ensures G w fun o w' past => K o ∧ w'.store = w.store ∧ past = []
  | done _, _, hx => ⟨hx, rfl, rfl⟩
  | call c next, w, hx => fun reply _ => by
    have hrest : (next (w.perform reply c).1).Ensures G (w.perform reply c).2 fun o w' past =>
        K o ∧ w'.store = (w.perform reply c).2.store ∧ past = [] :=
      of_quiet (hx.2 _ (w.credible_perform reply c))
    cases c with
    | store c => exact hx.1.elim
    | generateKey =>
      have hstore : ∀ a t, (w.perform reply (.generateKey a t)).2.store = w.store := by
        intro a t
        unfold World.perform
        rcases reply.keyFailure with _ | e <;> rfl
      rw [hstore] at hrest
      exact hrest
    | _ => exact hrest

end Rules

end Operation

end TokenAuthority

import TokenAuthority.Proofs.Interleaving

/-!
# Disciplines

A discipline follows an operation through phases. It says which calls may be made in a phase and
which phase an answer leads to. An operation obeys it if it makes only such calls, whatever they
are answered, and ends with what fits the phase it has come to (`Operation.Obeys`).

If the operations of all requests obey, then every request of a run has done so up to now
(`Regime.lawful_run`), and what holds of the world and of the phases of all requests goes on to
hold if each call that a phase allows keeps it (`Regime.Keeps.run`, and `Obeys.complete` for an
operation by itself). So a proof about interleavings need not look into operations.
-/

namespace TokenAuthority

open Time (Duration Instant)

variable {α β Φ : Type}

/-- What is found is what was looked for. -/
def StoreCall.Credible : (c : StoreCall) → Except StoreError c.Result → Prop
  | getClient clientId, a => ∀ c, a = .ok (some c) → c.clientId = clientId
  | getCode code, a => ∀ c, a = .ok (some c) → c.code = code
  | getRecord refreshId, a => ∀ r, a = .ok (some r) → r.refreshId = refreshId
  | _, _ => True

def Call.isStore : Call → Bool
  | .store _ => true
  | _ => false

/-- The credible answers are those that a world can give. -/
def Call.Credible : (c : Call) → c.Answer → Prop
  | .store c, a => c.Credible a
  | _, _ => True

theorem Store.credible_perform (s : Store) (c : StoreCall) : c.Credible (s.perform c).1 := by
  cases c <;> simp only [Store.perform, StoreCall.Credible, Except.ok.injEq]
  all_goals
    intro a h
    simpa using List.find?_some h

theorem World.credible_perform (reply : Reply) (w : World) (c : Call) :
    c.Credible (w.perform reply c).1 := by
  rcases c with c | _ | _ | _ | _ | _ | _ | _
  · unfold World.perform
    rcases reply.storeFailure with _ | e
    · exact w.store.credible_perform c
    · cases c <;> simp [Call.Credible, StoreCall.Credible]
  all_goals trivial

structure Discipline (Φ : Type) where
  allows : Φ → Call → Prop
  next : Φ → (c : Call) → c.Answer → Φ

namespace Discipline

/-- The discipline of the calls of the store; all others are allowed and change nothing. -/
def ofStore (allows : Φ → StoreCall → Prop)
    (next : Φ → (c : StoreCall) → Except StoreError c.Result → Φ) : Discipline Φ where
  allows φ c :=
    match c with
    | .store c => allows φ c
    | _ => True
  next φ c a :=
    match c, a with
    | .store c, a => next φ c a
    | _, _ => φ

/-- The discipline that allows some calls of the store at any time. -/
def only (P : StoreCall → Prop) : Discipline Unit := ofStore (fun _ => P) fun _ _ _ => ()

def quiet : Discipline Unit := only fun _ => False

variable (D : Discipline Φ)

def phase (φ : Φ) (past : List Event) : Φ := past.foldl (fun φ e => D.next φ e.1 e.2) φ

@[simp]
theorem phase_append (φ : Φ) (past : List Event) (e : Event) :
    D.phase φ (past ++ [e]) = D.next (D.phase φ past) e.1 e.2 := by
  simp [phase]

/-- Each call was allowed in its phase. -/
def Lawful : Φ → List Event → Prop
  | _, [] => True
  | φ, e :: past => D.allows φ e.1 ∧ e.1.Credible e.2 ∧ Lawful (D.next φ e.1 e.2) past

theorem lawful_append (e : Event) : ∀ (φ : Φ) (past : List Event),
    D.Lawful φ (past ++ [e]) ↔
      D.Lawful φ past ∧ D.allows (D.phase φ past) e.1 ∧ e.1.Credible e.2
  | φ, [] => by simp [Lawful, phase]
  | φ, e' :: past => by
    simp only [List.cons_append, Lawful, lawful_append e _ past, and_assoc]
    rfl

/-- What allowed calls keep of a phase holds of the last one. -/
theorem Lawful.keeps {D : Discipline Φ} {P : Φ → Prop}
    (hP : ∀ φ c a, P φ → D.allows φ c → c.Credible a → P (D.next φ c a)) :
    ∀ {past : List Event} {φ : Φ}, D.Lawful φ past → P φ → P (D.phase φ past)
  | [], _, _, hφ => hφ
  | _ :: _, φ, h, hφ => h.2.2.keeps hP (hP φ _ _ hφ h.1 h.2.1)

end Discipline

/-- What the first of two operations has to end with, if its result has to satisfy `K` and the
end of both `Q`. -/
def Outcome.AndThen (Q : Outcome β → Prop) (K : α → Prop) : Outcome α → Prop
  | .ok a => K a
  | .error e => Q (.error e)
  | .overflow => Q .overflow

/-- What an operation has to end with, if the end of an attempt at it has to satisfy `Q`. -/
def Outcome.Attempted (Q : Outcome (Except TokenError α) → Prop) : Outcome α → Prop
  | .ok a => Q (.ok (.ok a))
  | .error e => Q (.ok (.error e))
  | .overflow => Q .overflow

namespace Operation

variable (D : Discipline Φ) (Q : Φ → Outcome α → Prop)

/-- Whatever the answers, each call is allowed in its phase and the end fits the last one. -/
def Obeys : Operation α → Φ → Prop
  | done o, φ => Q φ o
  | call c next, φ =>
    D.allows φ c ∧ ∀ answer, c.Credible answer → (next answer).Obeys (D.next φ c answer)

section Laws

variable {D Q}

@[simp]
theorem obeys_done (o : Outcome α) (φ : Φ) : (done o).Obeys D Q φ ↔ Q φ o := Iff.rfl

@[simp]
theorem obeys_pure (a : α) (φ : Φ) : (pure a : Operation α).Obeys D Q φ ↔ Q φ (.ok a) := Iff.rfl

@[simp]
theorem obeys_fail (e : TokenError) (φ : Φ) : (fail e).Obeys D Q φ ↔ Q φ (.error e) := Iff.rfl

@[simp]
theorem obeys_ofExcept (x : Except TokenError α) (φ : Φ) :
    (ofExcept x).Obeys D Q φ ↔ Q φ (x.casesOn .error .ok) := by
  cases x <;> rfl

theorem obeys_bind {Q : Φ → Outcome β → Prop} (f : α → Operation β) :
    ∀ (x : Operation α) (φ : Φ), (x >>= f).Obeys D Q φ ↔
      x.Obeys D (fun φ => Outcome.AndThen (Q φ) fun a => (f a).Obeys D Q φ) φ
  | done (.ok _), _ => Iff.rfl
  | done (.error _), _ => Iff.rfl
  | done .overflow, _ => Iff.rfl
  | call _ next, _ =>
    and_congr_right fun _ => forall₂_congr fun a _ => obeys_bind f (next a) _

theorem obeys_attempt {Q : Φ → Outcome (Except TokenError α) → Prop} :
    ∀ (x : Operation α) (φ : Φ), x.attempt.Obeys D Q φ ↔
      x.Obeys D (fun φ => Outcome.Attempted (Q φ)) φ
  | done (.ok _), _ => Iff.rfl
  | done (.error _), _ => Iff.rfl
  | done .overflow, _ => Iff.rfl
  | call _ next, _ => and_congr_right fun _ => forall₂_congr fun a _ => obeys_attempt (next a) _

theorem Obeys.mono {P : Φ → Outcome α → Prop} (h : ∀ φ o, Q φ o → P φ o) :
    ∀ {x : Operation α} {φ : Φ}, x.Obeys D Q φ → x.Obeys D P φ
  | done _, _, hx => h _ _ hx
  | call _ _, _, hx => ⟨hx.1, fun a ha => (hx.2 a ha).mono h⟩

theorem Obeys.and {P : Φ → Outcome α → Prop} :
    ∀ {x : Operation α} {φ : Φ}, x.Obeys D P φ → x.Obeys D Q φ →
      x.Obeys D (fun φ o => P φ o ∧ Q φ o) φ
  | done _, _, hP, hQ => ⟨hP, hQ⟩
  | call _ _, _, hP, hQ => ⟨hP.1, fun a ha => (hP.2 a ha).and (hQ.2 a ha)⟩

/-- What an operation ends with in one discipline and in another. -/
theorem Obeys.both {Ψ : Type} {D' : Discipline Ψ} {K : Outcome α → Prop} :
    ∀ {x : Operation α} {φ : Φ} {ψ : Ψ}, x.Obeys D Q φ → x.Obeys D' (fun _ => K) ψ →
      x.Obeys D (fun φ o => Q φ o ∧ K o) φ
  | done _, _, _, hx, hx' => ⟨hx, hx'⟩
  | call _ _, _, _, hx, hx' => ⟨hx.1, fun a ha => (hx.2 a ha).both (hx'.2 a ha)⟩

end Laws

section Rules

variable {φ : Φ} {D : Discipline Φ} {Q : Φ → Outcome β → Prop}

theorem Obeys.bind {P : Φ → Outcome α → Prop} {x : Operation α} {f : α → Operation β}
    (hx : x.Obeys D P φ)
    (h : ∀ φ o, P φ o → o.AndThen (Q φ) fun a => (f a).Obeys D Q φ) : (x >>= f).Obeys D Q φ :=
  (obeys_bind f x φ).2 (hx.mono h)

theorem Obeys.attempt {P : Φ → Outcome α → Prop} {x : Operation α}
    {f : Except TokenError α → Operation β} (hx : x.Obeys D P φ)
    (hok : ∀ φ a, P φ (.ok a) → (f (.ok a)).Obeys D Q φ)
    (herror : ∀ φ e, P φ (.error e) → (f (.error e)).Obeys D Q φ)
    (hoverflow : ∀ φ, P φ .overflow → Q φ .overflow) : (x.attempt >>= f).Obeys D Q φ := by
  refine Obeys.bind ((obeys_attempt x φ).2 (hx.mono (P := fun φ => Outcome.Attempted fun o =>
    o.AndThen (Q φ) fun a => (f a).Obeys D Q φ) ?_)) fun _ _ h => h
  rintro φ (a | e | _) h
  · exact hok φ a h
  · exact herror φ e h
  · exact hoverflow φ h

theorem Obeys.ofExcept {x : Except TokenError α} {f : α → Operation β}
    (hok : ∀ a, x = .ok a → (f a).Obeys D Q φ) (herror : ∀ e, x = .error e → Q φ (.error e)) :
    (ofExcept x >>= f).Obeys D Q φ := by
  rcases x with e | a
  · exact herror e rfl
  · exact hok a rfl

theorem Obeys.after {now : Instant} {lifetime : Duration} {f : Instant → Operation β}
    (h : ∀ t, now.after lifetime = some t → (f t).Obeys D Q φ) (hoverflow : Q φ .overflow) :
    (after now lifetime >>= f).Obeys D Q φ := by
  unfold Operation.after
  rcases ht : now.after lifetime with _ | t
  · exact hoverflow
  · exact h t ht

theorem Obeys.tryStore {c : StoreCall} {f : Except StoreError c.Result → Operation β}
    (hallows : D.allows φ (.store c))
    (h : ∀ a, c.Credible a → (f a).Obeys D Q (D.next φ (.store c) a)) :
    (tryStore c >>= f).Obeys D Q φ := ⟨hallows, h⟩

theorem Obeys.ofStore {c : StoreCall} {f : c.Result → Operation β}
    (hallows : D.allows φ (.store c))
    (hok : ∀ r, c.Credible (.ok r) → (f r).Obeys D Q (D.next φ (.store c) (.ok r)))
    (herror : ∀ e, Q (D.next φ (.store c) (.error e)) (.error (.ofStore e))) :
    (ofStore c >>= f).Obeys D Q φ := by
  refine ⟨hallows, fun a ha => ?_⟩
  rcases a with e | r
  · exact herror e
  · exact hok r ha

variable {allows : Φ → StoreCall → Prop}
  {next : Φ → (c : StoreCall) → Except StoreError c.Result → Φ}

/-- A call that is none of the store leaves the phase. -/
theorem Obeys.ask {c : Call} {f : c.Answer → Operation β} (hc : ¬ c.isStore)
    (h : ∀ a, (f a).Obeys (.ofStore allows next) Q φ) :
    (ask c >>= f).Obeys (.ofStore allows next) Q φ := by
  cases c
  · exact absurd rfl hc
  all_goals exact ⟨trivial, fun a _ => h a⟩

/-- An operation that makes only calls that leave the phase ends in the phase in which it began. -/
theorem Obeys.of_only {P : StoreCall → Prop} {K : Outcome α → Prop} {Q : Φ → Outcome α → Prop}
    (hP : ∀ c, P c → allows φ c ∧ ∀ a, next φ c a = φ) (hK : ∀ o, K o → Q φ o) :
    ∀ {x : Operation α}, x.Obeys (.only P) (fun _ => K) () → x.Obeys (.ofStore allows next) Q φ
  | done _, hx => hK _ hx
  | call c next', hx => by
    have hnext := fun a ha => of_only hP hK (x := next' a) (hx.2 a ha)
    cases c with
    | store c =>
      refine ⟨(hP c hx.1).1, fun a ha => ?_⟩
      have := hnext a ha
      rwa [← (hP c hx.1).2 a] at this
    | _ => exact ⟨trivial, hnext⟩

theorem Obeys.only_mono {P P' : StoreCall → Prop} {K : Outcome α → Prop} (hP : ∀ c, P c → P' c)
    {x : Operation α} (hx : x.Obeys (.only P) (fun _ => K) ()) :
    x.Obeys (.only P') (fun _ => K) () :=
  hx.of_only (fun c hc => ⟨hP c hc, fun _ => rfl⟩) fun _ h => h

/-- An operation without calls of the store goes on in the phase in which it began. -/
theorem Obeys.of_quiet {K : Outcome α → Prop} {Q : Φ → Outcome α → Prop} (hK : ∀ o, K o → Q φ o)
    {x : Operation α} (hx : x.Obeys .quiet (fun _ => K) ()) : x.Obeys (.ofStore allows next) Q φ :=
  hx.of_only (fun _ h => h.elim) hK

end Rules

/-- What each allowed call keeps of a world and a phase holds where an operation ends. -/
theorem Obeys.complete {D : Discipline Φ} {Q : Φ → Outcome α → Prop} {J : World → Φ → Prop}
    {G : Reply → Prop} (hJ : ∀ w φ c reply, J w φ → D.allows φ c → G reply →
      J (w.perform reply c).2 (D.next φ c (w.perform reply c).1)) :
    ∀ {x : Operation α} {φ : Φ} {w : World} {replies : Nat → Reply}, x.Obeys D Q φ → J w φ →
      (∀ n, G (replies n)) →
      ∃ φ', Q φ' (World.complete x w replies).1 ∧ J (World.complete x w replies).2 φ'
  | done _, φ, _, _, hx, hw, _ => ⟨φ, hx, hw⟩
  | call c next, φ, w, replies, hx, hw, hr => by
    have hn := hx.2 _ (w.credible_perform (replies 0) c)
    exact hn.complete hJ (hJ w φ c _ hw hx.1 (hr 0)) fun n => hr (n + 1)

/-- The same for what only the calls of a working store change. -/
theorem Obeys.complete_store {allows : Φ → StoreCall → Prop}
    {next : Φ → (c : StoreCall) → Except StoreError c.Result → Φ} {Q : Φ → Outcome α → Prop}
    {K : Store → Φ → Prop}
    (hK : ∀ s φ c, K s φ → allows φ c → K (s.perform c).2 (next φ c (s.perform c).1))
    {x : Operation α} {φ : Φ} {w : World} {replies : Nat → Reply}
    (hx : x.Obeys (.ofStore allows next) Q φ) (hw : K w.store φ)
    (hr : ∀ n, (replies n).healthy) :
    ∃ φ', Q φ' (World.complete x w replies).1 ∧ K (World.complete x w replies).2.store φ' := by
  refine hx.complete (J := fun w φ => K w.store φ) (G := fun r => r.healthy) ?_ hw hr
  intro w φ c reply hw hc hok
  cases c with
  | store c =>
    unfold World.perform
    rcases hf : reply.storeFailure with _ | e
    · exact hK w.store φ c hw hc
    · simp [Reply.healthy, hf] at hok
  | generateKey =>
    unfold World.perform
    rcases reply.keyFailure with _ | e <;> exact hw
  | _ => exact hw

end Operation

section Set

variable {ph : List Φ} {i j : Nat} {φ ψ χ : Φ}

theorem mem_set_self (hi : ph[i]? = some φ) : χ ∈ ph.set i χ :=
  List.mem_set (List.getElem?_eq_some_iff.1 hi).1 χ

theorem mem_set_of_mem (hi : ph[i]? = some φ) (h : ψ ∈ ph) (hne : ψ ≠ φ) : ψ ∈ ph.set i χ := by
  obtain ⟨j, hj⟩ := List.mem_iff_getElem?.1 h
  have hij : i ≠ j := by
    rintro rfl
    exact hne (Option.some.inj (hj.symm.trans hi))
  exact List.mem_of_getElem? ((List.getElem?_set_ne hij).trans hj)

theorem mem_of_mem_set (h : ψ ∈ ph.set i χ) (hne : ψ ≠ χ) : ψ ∈ ph :=
  (List.mem_or_eq_of_mem_set h).resolve_right hne

theorem set_eq_self (hi : ph[i]? = some φ) : ph.set i φ = ph := by
  obtain ⟨hlt, rfl⟩ := List.getElem?_eq_some_iff.1 hi
  exact List.set_getElem_self hlt

theorem getElem?_set_cases (h : (ph.set i χ)[j]? = some ψ) :
    i = j ∧ χ = ψ ∨ i ≠ j ∧ ph[j]? = some ψ := by
  by_cases hij : i = j
  · subst hij
    rw [List.getElem?_set_self'] at h
    rcases hi : ph[i]? with _ | φ <;> simp_all
  · exact .inr ⟨hij, (List.getElem?_set_ne hij).symm.trans h⟩

theorem getElem?_of_set (h : (ph.set i χ)[j]? = some ψ) (hne : ψ ≠ χ) : ph[j]? = some ψ := by
  rcases getElem?_set_cases h with ⟨-, he⟩ | ⟨-, h⟩
  · exact absurd he.symm hne
  · exact h

theorem getElem?_of_append (h : (ph ++ [χ])[j]? = some ψ) (hne : ψ ≠ χ) : ph[j]? = some ψ := by
  rw [List.getElem?_append] at h
  split_ifs at h
  · exact h
  · exact absurd (List.mem_singleton.1 (List.mem_of_getElem? h)) hne

end Set

/-- A discipline for the operations of all requests: the phase that a request starts in, and what
fits a phase at its end. -/
structure Regime (Φ : Type) where
  discipline : Discipline Φ
  start : Request → Φ
  Fits : (r : Request) → Φ → Outcome r.Result → Prop
  obeys : ∀ r : Request, r.operation.Obeys discipline (Fits r) (start r)

namespace Regime

variable (R : Regime Φ)

def phase (t : Thread) : Φ := R.discipline.phase (R.start t.request) t.past

def phases (s : System) : List Φ := s.threads.map R.phase

/-- The request has obeyed so far and will. -/
def Lawful (t : Thread) : Prop :=
  R.discipline.Lawful (R.start t.request) t.past
    ∧ t.rest.Obeys R.discipline (R.Fits t.request) (R.phase t)

theorem getElem?_phases {s : System} {i : Nat} {t : Thread} (hi : s.threads[i]? = some t) :
    (R.phases s)[i]? = some (R.phase t) := by
  rw [phases, List.getElem?_map, hi, Option.map_some]

theorem lawful_start (r : Request) : R.Lawful (.start r) := ⟨trivial, R.obeys r⟩

theorem lawful_step {t : Thread} (h : R.Lawful t) (reply : Reply) (w : World) :
    R.Lawful (t.step reply w).1 := by
  obtain ⟨r, past, o | ⟨c, next⟩⟩ := t
  · exact h
  obtain ⟨hpast, hallows, hnext⟩ := h
  have hc := w.credible_perform reply c
  refine ⟨(R.discipline.lawful_append _ _ _).2 ⟨hpast, hallows, hc⟩, ?_⟩
  have := hnext _ hc
  simpa only [Thread.step, phase, Discipline.phase_append] using this

theorem lawful_move {s : System} (h : ∀ t ∈ s.threads, R.Lawful t) (m : Move) :
    ∀ t ∈ (s.move m).threads, R.Lawful t := by
  intro t ht
  unfold System.move at ht
  split at ht
  · rcases List.mem_append.1 ht with ht | ht
    · exact h t ht
    · rw [List.mem_singleton.1 ht]
      exact R.lawful_start _
  · split at ht
    · exact h t ht
    · rename_i t' ht'
      rcases List.mem_or_eq_of_mem_set ht with ht | rfl
      · exact h t ht
      · exact R.lawful_step (h _ (List.mem_of_getElem? ht')) _ _
  all_goals exact h t ht

theorem lawful_run : ∀ (moves : List Move) {s : System}, (∀ t ∈ s.threads, R.Lawful t) →
    ∀ t ∈ (s.run moves).threads, R.Lawful t
  | [], _, h => h
  | m :: moves, _, h => lawful_run moves (R.lawful_move h m)

theorem lawful_of_start (w : World) (moves : List Move) :
    ∀ t ∈ ((System.start w).run moves).threads, R.Lawful t :=
  R.lawful_run moves fun _ ht => absurd ht List.not_mem_nil

theorem Lawful.fits {R : Regime Φ} {t : Thread} {o : Outcome t.request.Result} (h : R.Lawful t)
    (ho : t.rest = .done o) : R.Fits t.request (R.phase t) o := by
  have := h.2
  rwa [ho] at this

/-- A property of the world and the phases of all requests is kept by the moves of a run: by new
requests, new registrations and the calls that a phase allows. -/
structure Keeps (J : World → List Φ → Prop) (ok : Reply → Prop) : Prop where
  start : ∀ w ph r, J w ph → J w (ph ++ [R.start r])
  register : ∀ w ph clients users, J w ph →
    J { w with store := { w.store with clients := clients, users := users } } ph
  call : ∀ w ph i φ c reply, J w ph → ph[i]? = some φ → R.discipline.allows φ c → ok reply →
    J (w.perform reply c).2 (ph.set i (R.discipline.next φ c (w.perform reply c).1))

variable {R} {J : World → List Φ → Prop} {ok : Reply → Prop}

theorem Keeps.move (hJ : R.Keeps J ok) {s : System} (h : ∀ t ∈ s.threads, R.Lawful t)
    (hs : J s.world (R.phases s)) {m : Move} (hm : ∀ i reply, m = .step i reply → ok reply) :
    J (s.move m).world (R.phases (s.move m)) := by
  unfold System.move
  split
  · rename_i r
    have := hJ.start _ _ r hs
    simpa [phases, phase, Thread.start, Discipline.phase] using this
  · rename_i i reply
    split
    · exact hs
    · rename_i t ht
      have hlaw := h t (List.mem_of_getElem? ht)
      obtain ⟨r, past, o | ⟨c, next⟩⟩ := t
      · simpa only [Thread.step, set_eq_self ht] using hs
      · have := hJ.call _ _ i _ c reply hs (R.getElem?_phases ht) hlaw.2.1 (hm i reply rfl)
        simpa [phases, List.map_set, Thread.step, phase] using this
  all_goals exact hJ.register _ _ _ _ hs

/-- What the calls of the store keep is kept, since no other call changes the store or a phase. -/
theorem Keeps.ofStore {allows : Φ → StoreCall → Prop}
    {next : Φ → (c : StoreCall) → Except StoreError c.Result → Φ}
    (hD : R.discipline = .ofStore allows next) {K : Store → List Φ → Prop}
    (start : ∀ s ph r, K s ph → K s (ph ++ [R.start r]))
    (register : ∀ s ph clients users, K s ph → K { s with clients := clients, users := users } ph)
    (call : ∀ s ph i φ c, K s ph → ph[i]? = some φ → allows φ c →
      K (s.perform c).2 (ph.set i (next φ c (s.perform c).1)))
    (fail : ∀ reply e, ok reply → reply.storeFailure = some e → ∀ s ph i φ c, K s ph →
      ph[i]? = some φ → allows φ c → K s (ph.set i (next φ c (.error e)))) :
    R.Keeps (fun w ph => K w.store ph) ok where
  start w := start w.store
  register w := register w.store
  call w ph i φ c reply hK hi hc hok := by
    rw [hD] at hc ⊢
    have hself := set_eq_self hi
    cases c with
    | store c =>
      unfold World.perform
      rcases hf : reply.storeFailure with _ | e
      · exact call w.store ph i φ c hK hi hc
      · exact fail reply e hok hf w.store ph i φ c hK hi hc
    | generateKey =>
      unfold World.perform
      rcases reply.keyFailure with _ | e <;> exact hself.symm ▸ hK
    | _ => exact hself.symm ▸ hK

theorem Keeps.run (hJ : R.Keeps J ok) : ∀ (moves : List Move) {s : System},
    (∀ t ∈ s.threads, R.Lawful t) → J s.world (R.phases s) →
    (∀ i reply, .step i reply ∈ moves → ok reply) →
    J (s.run moves).world (R.phases (s.run moves))
  | [], _, _, hs, _ => hs
  | m :: moves, _, h, hs, hm =>
    hJ.run moves (R.lawful_move h m)
      (hJ.move h hs fun i reply hi => hm i reply (hi ▸ List.mem_cons_self))
      fun i reply hi => hm i reply (List.mem_cons_of_mem _ hi)

theorem Keeps.of_start (hJ : R.Keeps J ok) {w : World} (hw : J w []) {moves : List Move}
    (hm : ∀ i reply, .step i reply ∈ moves → ok reply) :
    J ((System.start w).run moves).world (R.phases ((System.start w).run moves)) :=
  hJ.run moves (fun _ ht => absurd ht List.not_mem_nil) hw hm

end Regime

end TokenAuthority

import TokenAuthority.Proofs.Code.Spending
import TokenAuthority.Proofs.Ledger.Phase

/-!
# The counters account for the store

What the store shows and what was counted differ by what the requests in flight owe
(`Ledger.keeps_balanced`), so that they agree whenever no request is in flight
(`counters_account_for_store`). Each mark is counted by the request whose call has set it, in
whatever order the calls come: a chain is burned record by record, and a record that was revoked
before is not counted again.
-/

namespace TokenAuthority

open Balance (zero only plus_zero)

namespace Store

/-- What the store shows of the accounts; reuses it does not. -/
def shown (s : Store) : Balance
  | .codes => s.codes.length
  | .used => s.codes.countP (·.used)
  | .roots _ => s.records.countP (·.parent.isNone)
  | .rotated => s.records.countP (·.rotated)
  | .revoked => s.records.countP (·.revoked)
  | .reuses => 0

section Lists

variable {α : Type} {p q : α → Bool} {f : α → α}

theorem length_updateFirst : ∀ l : List α, (updateFirst p f l).length = l.length
  | [] => rfl
  | a :: l => by
    unfold updateFirst
    split_ifs
    · rfl
    · rw [List.length_cons, List.length_cons, length_updateFirst l]

theorem countP_updateFirst_of_same (hf : ∀ a, q (f a) = q a) :
    ∀ l : List α, (updateFirst p f l).countP q = l.countP q
  | [] => rfl
  | a :: l => by
    unfold updateFirst
    split_ifs
    · rw [List.countP_cons, List.countP_cons, hf]
    · rw [List.countP_cons, List.countP_cons, countP_updateFirst_of_same hf l]

/-- The first one of a kind comes to be of another kind. -/
theorem countP_updateFirst {b : α} (hb : q b = false) (hf : q (f b) = true) :
    ∀ {l : List α}, l.find? p = some b → (updateFirst p f l).countP q = l.countP q + 1
  | [], h => nomatch h
  | a :: l, h => by
    unfold updateFirst
    by_cases ha : p a
    · obtain rfl : a = b := by simpa [ha] using h
      rw [if_pos ha, List.countP_cons_of_pos hf, List.countP_cons_of_neg (by simp [hb])]
    · rw [if_neg ha, List.countP_cons, List.countP_cons, countP_updateFirst hb hf]
      · omega
      · simpa [ha] using h

theorem countP_revoked {ids : List String} : ∀ l : List TokenRecord,
    (l.map fun r => if ids.contains r.refreshId then setRevoked r else r).countP (·.revoked) =
      l.countP (·.revoked) + l.countP fun r => ids.contains r.refreshId && !r.revoked
  | [] => rfl
  | r :: l => by
    rw [List.map_cons, List.countP_cons, List.countP_cons, List.countP_cons, countP_revoked l]
    by_cases hr : ids.contains r.refreshId = true
    · rw [if_pos hr, hr, Bool.true_and, setRevoked]
      cases r.revoked <;>
        simp only [Bool.not_true, Bool.not_false, Bool.false_eq_true, if_true, if_false] <;> omega
    · rw [if_neg hr, Bool.eq_false_iff.2 hr, Bool.false_and, if_neg Bool.false_ne_true]
      omega

/-- A change that makes no difference to what is counted. -/
theorem countP_map_of_same (hf : ∀ a, q (f a) = q a) (l : List α) :
    (l.map f).countP q = l.countP q := by
  rw [List.countP_map]
  exact List.countP_congr fun a _ => by rw [Function.comp_apply, hf]

end Lists

section Calls

variable {s : Store}

theorem shown_createCode {c : AuthorizationCode} (hc : c.used = false) :
    (s.createCode c).2.shown =
      s.shown.plus ((StoreCall.createCode c).gain (s.createCode c).1) := by
  unfold createCode
  split
  · exact (plus_zero s.shown).symm
  · funext a
    cases a <;> simp [shown, StoreCall.gain, Balance.plus, only, hc]

theorem shown_markCodeUsed (v : String) : (s.markCodeUsed v).2.shown =
    s.shown.plus ((StoreCall.markCodeUsed v).gain (.ok (s.markCodeUsed v).1)) := by
  rw [markCodeUsed_eq]
  rcases hc : s.code? v with _ | c
  · exact (plus_zero s.shown).symm
  dsimp only
  split_ifs with hused
  · exact (plus_zero s.shown).symm
  · have hcount := countP_updateFirst (q := (·.used)) (f := setUsed)
      (Bool.eq_false_iff.2 hused) rfl hc
    funext a
    cases a <;> simp [shown, StoreCall.gain, Balance.plus, only, length_updateFirst, hcount]

theorem shown_createRecord {r : TokenRecord} (hr : r.live = true) :
    (s.createRecord r).2.shown =
      s.shown.plus ((StoreCall.createRecord r).gain (s.createRecord r).1) := by
  obtain ⟨hrotated, hrevoked⟩ : r.rotated = false ∧ r.revoked = false := by
    simpa [TokenRecord.live] using hr
  unfold createRecord
  split
  · exact (plus_zero s.shown).symm
  · funext a
    rcases hp : r.parent with _ | x <;> cases a <;>
      simp [shown, StoreCall.gain, Balance.plus, Account.root, zero, hp, hrotated, hrevoked]

/-- A record is marked as exchanged once. -/
theorem shown_markRotated (x : String) : (s.markRotated x).2.shown =
    s.shown.plus ((StoreCall.markRotated x).gain (.ok (s.markRotated x).1)) := by
  by_cases h : s.Live x
  · rw [markRotated_of_live h]
    obtain ⟨r, hr, hlive⟩ := h
    have hunrotated : r.rotated = false := by
      simp only [TokenRecord.live, Bool.and_eq_true, Bool.not_eq_true'] at hlive
      exact hlive.1
    have hcount := countP_updateFirst (q := (·.rotated)) (f := setRotated) hunrotated rfl hr
    have hroots := countP_updateFirst_of_same (p := (·.refreshId == x)) (q := (·.parent.isNone))
      (f := setRotated) (fun _ => rfl) s.records
    have hrevoked := countP_updateFirst_of_same (p := (·.refreshId == x)) (q := (·.revoked))
      (f := setRotated) (fun _ => rfl) s.records
    funext a
    cases a <;> simp [shown, change, StoreCall.gain, Balance.plus, only, hcount, hroots, hrevoked]
  · rw [markRotated_of_not_live h]
    exact (plus_zero s.shown).symm

theorem shown_revokeByRefreshId (x : String) : (s.revokeByRefreshId x).2.shown =
    s.shown.plus ((StoreCall.revokeByRefreshId x).gain (.ok (s.revokeByRefreshId x).1)) := by
  rw [revokeByRefreshId_eq]
  rcases hr : s.record? x with _ | r
  · exact (plus_zero s.shown).symm
  dsimp only
  split_ifs with hrev
  · exact (plus_zero s.shown).symm
  · have hcount := countP_updateFirst (q := (·.revoked)) (f := setRevoked)
      (Bool.eq_false_iff.2 hrev) rfl hr
    have hroots := countP_updateFirst_of_same (p := (·.refreshId == x)) (q := (·.parent.isNone))
      (f := setRevoked) (fun _ => rfl) s.records
    have hrotated := countP_updateFirst_of_same (p := (·.refreshId == x)) (q := (·.rotated))
      (f := setRevoked) (fun _ => rfl) s.records
    funext a
    cases a <;> simp [shown, change, StoreCall.gain, Balance.plus, only, hcount, hroots, hrotated]

/-- Those of a chain that are revoked are those that were not before. -/
theorem shown_revokeChain (x : String) : (s.revokeChain x).2.shown =
    s.shown.plus ((StoreCall.revokeChain x).gain (.ok (s.revokeChain x).1)) := by
  have hrevoked : (s.revokeChain x).2.records.countP (·.revoked) =
      s.records.countP (·.revoked) + (s.revokeChain x).1 := countP_revoked s.records
  have hsame : ∀ q : TokenRecord → Bool, (∀ r, q (setRevoked r) = q r) →
      (s.revokeChain x).2.records.countP q = s.records.countP q := by
    intro q hq
    refine countP_map_of_same (fun r => ?_) s.records
    split_ifs
    · exact hq r
    · rfl
  have hroots := hsame (·.parent.isNone) fun _ => rfl
  have hrotated := hsame (·.rotated) fun _ => rfl
  funext a
  cases a with
  | codes | used | reuses => exact (Int.add_zero _).symm
  | roots kind => exact (congrArg Int.ofNat hroots).trans (Int.add_zero _).symm
  | rotated => exact (congrArg Int.ofNat hrotated).trans (Int.add_zero _).symm
  | revoked => exact congrArg Int.ofNat hrevoked

theorem shown_perform (s : Store) {b : Balance} {c : StoreCall}
    (hc : Ledger.Allows (some b) (.store c)) :
    (s.perform c).2.shown = s.shown.plus (c.gain (s.perform c).1) := by
  cases c with
  | createCode c => exact shown_createCode hc
  | markCodeUsed v => exact shown_markCodeUsed v
  | createRecord r => exact shown_createRecord hc
  | markRotated x => exact shown_markRotated x
  | revokeByRefreshId x => exact shown_revokeByRefreshId x
  | revokeChain x => exact shown_revokeChain x
  | revokeRecord id => exact hc.elim
  | _ => exact (plus_zero s.shown).symm

end Calls

end Store

namespace Meters

/-- What was counted since the counters had other values. -/
def since (m m₀ : Meters) : Counter → Int := fun c => m c - m₀ c

/-- What the counters tell of the accounts. A reuse is counted in two ways. -/
def shown (n : Counter → Int) : Balance
  | .codes => n (.codes .issued)
  | .used => n (.codes .redeemed)
  | .roots kind => n (.issued kind .rs256) + n (.issued kind .ps256) + n (.issued kind .es256)
  | .rotated => n (.refreshed .success)
  | .revoked => n (.revoked .reuseDetected) + n (.revoked .clientRequest)
  | .reuses => n (.refreshed .reuseDetected) - n .reuses

theorem since_self (m : Meters) : m.since m = fun _ => 0 := funext fun c => Int.sub_self (m c)

theorem shown_point (c : Counter) (n : Nat) :
    shown (fun d => if d = c then (n : Int) else 0) = c.tally n := by
  funext a
  cases c with
  | issued kind algorithm =>
    cases a with
    | roots kind' =>
      by_cases hk : kind' = kind <;> cases algorithm <;> simp [shown, Counter.tally, only, hk]
    | _ => simp [shown, Counter.tally, only]
  | refreshed result => cases result <;> cases a <;> simp [shown, Counter.tally, only, Balance.zero]
  | revoked reason => cases reason <;> cases a <;> simp [shown, Counter.tally, only]
  | codes event => cases event <;> cases a <;> simp [shown, Counter.tally, only, Balance.zero]
  | _ => cases a <;> simp [shown, Counter.tally, only, Balance.zero]

theorem shown_add (m m₀ : Meters) (c : Counter) (n : Nat) :
    shown ((m.add c n).since m₀) = (shown (m.since m₀)).plus (c.tally n) := by
  have hadd : (m.add c n).since m₀ = fun d => m.since m₀ d + if d = c then (n : Int) else 0 := by
    funext d
    unfold since add
    split_ifs <;> omega
  rw [hadd, ← shown_point]
  funext a
  cases a <;> simp only [shown, Balance.plus] <;> omega

end Meters

namespace Balance

def total : List Balance → Balance
  | [] => zero
  | b :: bs => b.plus (total bs)

theorem total_append_zero : ∀ bs : List Balance, total (bs ++ [zero]) = total bs
  | [] => plus_zero zero
  | b :: bs => congrArg b.plus (total_append_zero bs)

theorem total_set {b : Balance} (c : Balance) (a : Account) : ∀ {bs : List Balance} {i : Nat},
    bs[i]? = some b → total (bs.set i c) a = total bs a + (c a - b a)
  | d :: bs, 0, hi => by
    obtain rfl : d = b := Option.some.inj hi
    show c a + total bs a = d a + total bs a + (c a - d a)
    omega
  | d :: bs, i + 1, hi => by
    have ih : total (bs.set i c) a = total bs a + (c a - b a) := total_set c a hi
    show d a + total (bs.set i c) a = d a + total bs a + (c a - b a)
    omega

theorem total_eq_zero : ∀ {bs : List Balance}, (∀ b ∈ bs, b = zero) → total bs = zero
  | [], _ => rfl
  | b :: bs, h => by
    obtain ⟨hb, hbs⟩ := List.forall_mem_cons.1 h
    rw [total, hb, total_eq_zero hbs, plus_zero]

end Balance

namespace Ledger

/-- What requests owe in all is what the counters lack. -/
def Balanced (m₀ : Meters) (w : World) (bs : List Balance) : Prop :=
  ∀ a, w.store.shown a = Meters.shown (w.meters.since m₀) a + Balance.total bs a

section Step

variable {m₀ : Meters} {w w' : World} {bs : List Balance} {i : Nat} {b b' : Balance}

theorem Balanced.start (h : Balanced m₀ w bs) : Balanced m₀ w (bs ++ [zero]) := by
  intro a
  rw [Balance.total_append_zero]
  exact h a

/-- What is added to the store and not counted is added to what the request owes. -/
theorem Balanced.set (h : Balanced m₀ w bs) (hb : bs[i]? = some b)
    (hadd : ∀ a, w'.store.shown a - w.store.shown a = b' a - b a +
      (Meters.shown (w'.meters.since m₀) a - Meters.shown (w.meters.since m₀) a)) :
    Balanced m₀ w' (bs.set i b') := by
  intro a
  have hold := h a
  have hnew := hadd a
  rw [Balance.total_set b' a hb]
  omega

theorem Balanced.stay (h : Balanced m₀ w bs) (hb : bs[i]? = some b) (hs : w'.store = w.store)
    (hm : w'.meters = w.meters) : Balanced m₀ w' (bs.set i b) := by
  refine h.set hb fun a => ?_
  rw [hs, hm]
  omega

/-- Whatever a request adds to the store it owes, as long as the store works. -/
theorem next_perform (s : Store) (b : Balance) (c : StoreCall) :
    next (some b) (.store c) (s.perform c).1 = some (b.plus (c.gain (s.perform c).1)) := by
  cases c <;> rfl

theorem Balanced.call (h : Balanced m₀ w bs) (hb : bs[i]? = some b) {c : Call}
    (hc : Allows (some b) c) {reply : Reply} (hok : reply.healthy) :
    ∃ b', next (some b) c (w.perform reply c).1 = some b' ∧
      Balanced m₀ (w.perform reply c).2 (bs.set i b') := by
  cases c with
  | store c =>
    unfold World.perform
    rcases hf : reply.storeFailure with _ | e
    · refine ⟨_, next_perform w.store b c, h.set hb fun a => ?_⟩
      show (w.store.perform c).2.shown a - w.store.shown a = _
      rw [w.store.shown_perform hc]
      simp only [Balance.plus]
      omega
    · simp [Reply.healthy, hf] at hok
  | count counter n =>
    refine ⟨_, rfl, h.set hb fun a => ?_⟩
    show w.store.shown a - w.store.shown a = b a - counter.tally n a - b a +
      (Meters.shown ((w.meters.add counter n).since m₀) a - Meters.shown (w.meters.since m₀) a)
    rw [Meters.shown_add]
    simp only [Balance.plus]
    omega
  | generateKey =>
    unfold World.perform
    rcases reply.keyFailure with _ | e <;> exact ⟨b, rfl, h.stay hb rfl rfl⟩
  | _ => exact ⟨b, rfl, h.stay hb rfl rfl⟩

end Step

/-- As long as the store works, all requests are followed. -/
theorem keeps_balanced (m₀ : Meters) : regime.Keeps
    (fun w ph => ∃ bs : List Balance, ph = bs.map some ∧ Balanced m₀ w bs)
    fun r => r.healthy where
  start w ph _ := by
    rintro ⟨bs, rfl, h⟩
    exact ⟨bs ++ [zero], by simp [regime], h.start⟩
  register w ph clients users := by
    rintro ⟨bs, rfl, h⟩
    have hshown : ({ w.store with clients, users } : Store).shown = w.store.shown := by
      funext a
      cases a <;> rfl
    exact ⟨bs, rfl, fun a => (congrFun hshown a).trans (h a)⟩
  call w ph i φ c reply := by
    rintro ⟨bs, rfl, h⟩ hi hc hok
    obtain ⟨b, hb, rfl⟩ : ∃ b, bs[i]? = some b ∧ some b = φ := by simpa using hi
    obtain ⟨b', hnext, h'⟩ := h.call hb hc hok
    refine ⟨bs.set i b', ?_, h'⟩
    rw [List.map_set, ← hnext]
    rfl

/-- A request that has ended owes nothing. -/
theorem balance_eq_zero {t : Thread} (ht : t.inFlight = false) (hlaw : regime.Lawful t)
    {b : Balance} (hb : regime.phase t = some b) : b = zero := by
  obtain ⟨o, ho⟩ := Thread.exists_done ht
  rcases hlaw.fits ho with hnone | hsome
  · exact absurd (hb.symm.trans hnone) nofun
  · exact Option.some.inj (hb.symm.trans hsome)

/-- With no request in flight the counters lack nothing. -/
theorem shown_run {w : World} (hcodes : w.store.codes = []) (hrecords : w.store.records = [])
    {moves : List Move} (hhealthy : ∀ m ∈ moves, m.healthy)
    (hends : ∀ t ∈ ((System.start w).run moves).threads, t.inFlight = false) :
    ((System.start w).run moves).world.store.shown =
      Meters.shown (((System.start w).run moves).world.meters.since w.meters) := by
  have hstart : Balanced w.meters w [] := by
    intro a
    rw [Meters.since_self]
    cases a <;> simp [Store.shown, Meters.shown, hcodes, hrecords, Balance.total, zero]
  obtain ⟨bs, hbs, h⟩ := (keeps_balanced w.meters).of_start ⟨[], rfl, hstart⟩
    fun i reply hi => hhealthy _ hi
  have hzero : Balance.total bs = zero := by
    refine Balance.total_eq_zero fun b hb => ?_
    have hmem : some b ∈ regime.phases ((System.start w).run moves) :=
      hbs.symm ▸ List.mem_map_of_mem hb
    obtain ⟨t, ht, hphase⟩ := List.mem_map.1 hmem
    exact balance_eq_zero (hends t ht) (regime.lawful_of_start w moves t ht) hphase
  funext a
  rw [h a, hzero]
  exact Int.add_zero _

end Ledger

/-- What was counted accounts for what is stored. -/
structure Store.AccountedFor (s : Store) (n : Counter → Int) : Prop where
  codes : n (.codes .issued) = s.codes.length
  used : n (.codes .redeemed) = s.codes.countP (·.used)
  /-- One token of each kind is counted for a root, by whichever algorithm it was signed. -/
  roots : ∀ kind, n (.issued kind .rs256) + n (.issued kind .ps256) + n (.issued kind .es256) =
    s.records.countP (·.parent.isNone)
  rotated : n (.refreshed .success) = s.records.countP (·.rotated)
  revoked : n (.revoked .reuseDetected) + n (.revoked .clientRequest) =
    s.records.countP (·.revoked)
  reuses : n .reuses = n (.refreshed .reuseDetected)

/-- The counters account for the store whenever no request is in flight, if the store works. -/
theorem counters_account_for_store {w : World} (hcodes : w.store.codes = [])
    (hrecords : w.store.records = []) {moves : List Move} (hhealthy : ∀ m ∈ moves, m.healthy)
    (hends : ∀ t ∈ ((System.start w).run moves).threads, t.inFlight = false) :
    ((System.start w).run moves).world.store.AccountedFor
      (((System.start w).run moves).world.meters.since w.meters) := by
  have h := fun a => congrFun (Ledger.shown_run hcodes hrecords hhealthy hends) a
  refine ⟨(h .codes).symm, (h .used).symm, fun kind => (h (.roots kind)).symm, (h .rotated).symm,
    (h .revoked).symm, ?_⟩
  have hreuses := h .reuses
  simp only [Store.shown, Meters.shown] at hreuses
  omega

/-- Two requests exchange a refresh token at the same time: the one that comes second burns the
record, its own and that of the other, which are counted as three, and the reuse as one. -/
theorem counters_account_for_store_race :
    Sample.raced.world.store.records.map (fun r => (r.parent.isNone, r.rotated, r.revoked)) =
      [(true, true, true), (false, false, true), (false, false, true)] ∧
    Sample.raced.world.meters (.revoked .reuseDetected) = 3 ∧
    Sample.raced.world.meters .reuses = 1 ∧
    Sample.raced.world.store.AccountedFor
      (Sample.raced.world.meters.since Sample.world.meters) := by
  refine ⟨by decide +kernel, by decide +kernel, by decide +kernel, ?_⟩
  have hhealthy : ∀ m ∈ Sample.race, m.healthy := by decide +kernel
  have hends : ∀ t ∈ Sample.raced.threads, t.inFlight = false := by decide +kernel
  rw [Sample.raced] at hends ⊢
  exact counters_account_for_store rfl rfl hhealthy hends

end TokenAuthority

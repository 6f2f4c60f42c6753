import TokenAuthority.Proofs.Chain.Descent
import TokenAuthority.Proofs.Token.Minting

/-!
# Exchanges that fail

How an exchange of a refresh token ends on a store that works is settled by what it reads
(`Rotation.verdict`). Whichever calls fail, it goes one of a few ways (`Rotation.Course`,
`ensures_refresh`): a failure leaves the records as they are, but for a child that nothing is done
with. So an exchange that has failed can be tried again (`failed_refresh`).
-/

namespace TokenAuthority

open Operation Time

namespace Rotation

/-- What is minted to continue a record. -/
def continuation (r : TokenRecord) (clientId : String) (audience : List String) : Issuance.Mint :=
  ⟨⟨r.userId, clientId, r.scope, audience, none⟩, some r.refreshId, false⟩

/-- How an exchange ends if the store works. -/
def verdict (q : Request) (p : TokenPolicy) (now : Instant) (s : Store) (ring : KeyRing) :
    Outcome Unit :=
  match s.record? q.refreshId with
  | none => .error (.invalidGrant "unknown refresh token")
  | some r =>
    if r.revoked then .error (.invalidGrant "refresh token revoked")
    else if r.rotated then .error .reuseDetected
    else if q.client.any (· ≠ r.clientId) then
      .error (.invalidGrant "refresh token issued to another client")
    else if r.refreshExpired now then .error .refreshExpired
    else
      match s.client? r.clientId with
      | none => .error (.clientNotFound r.clientId)
      | some c => (continuation r c.clientId q.audience).verdict p now ring

end Rotation

namespace Store

variable {s : Store} {r : TokenRecord}

theorem updateFirst_append {α : Type} {p : α → Bool} {f : α → α} {a : α} (ha : p a) :
    ∀ {l : List α}, (∀ b ∈ l, ¬ p b) → updateFirst p f (l ++ [a]) = l ++ [f a]
  | [], _ => if_pos ha
  | b :: l, h => by
    obtain ⟨hb, hl⟩ := List.forall_mem_cons.1 h
    rw [List.cons_append, updateFirst, if_neg hb, updateFirst_append ha hl, List.cons_append]

/-- The revocation of a record that has just been stored. -/
theorem revokeRecord_add (h : ∀ r' ∈ s.records, r'.id ≠ r.id) (hr : r.revoked = false) :
    (s.add r).revokeRecord r.id = (true, s.add (setRevoked r)) := by
  have hnone : ∀ r' ∈ s.records, ¬ (r'.id == r.id) = true := fun r' hr' => by simpa using h r' hr'
  have hfind : (s.add r).records.find? (·.id == r.id) = some r := by
    have hrest : s.records.find? (·.id == r.id) = none := by simpa using h
    rw [Store.add, List.find?_append, hrest]
    simp
  have hupdate : updateFirst (·.id == r.id) ({ · with revoked := true }) (s.records ++ [r]) =
      s.records ++ [setRevoked r] := updateFirst_append (by simp) hnone
  unfold revokeRecord revokeFirst
  rw [hfind]
  dsimp only
  rw [if_neg (by simp [hr])]
  simp only [Store.add, hupdate]

/-- A live record can be marked when its child has been stored. -/
theorem perform_markRotated_add {x : String} {child : TokenRecord}
    (hchild : ¬ s.Known child.refreshId) (hr : s.record? x = some r) (hl : r.live = true) :
    (s.add child).perform (.markRotated r.refreshId) =
      (.ok true, (s.add child).change setRotated x) := by
  have hlive : (s.add child).Live x := by
    refine ⟨r, ?_, hl⟩
    rw [record?_add hchild, if_neg, hr]
    exact fun hx => hchild ⟨r, hx ▸ hr⟩
  rw [record?_refreshId hr]
  exact congrArg (fun m => (Except.ok m.1, m.2)) (markRotated_of_live hlive)

theorem Fresh.not_known {past : List StoreEvent} (h : s.Fresh past)
    (hr : r ∈ past.filterMap StoreEvent.record?) : ¬ s.Known r.refreshId := by
  rintro ⟨r', hr'⟩
  exact (h r hr r' (List.mem_of_find?_eq_some hr')).1 (record?_refreshId hr')

end Store

namespace Store

variable {s : Store} {x : String}

/-- A record and what descends from it are revoked, and nothing else is changed. -/
structure Burns (s : Store) (x : String) (s' : Store) : Prop where
  below : ∀ y, s.Descends y x → s'.record? y = (s.record? y).map setRevoked
  others : ∀ y, ¬ s.Descends y x → s'.record? y = s.record? y
  rest : s'.clients = s.clients ∧ s'.users = s.users ∧ s'.codes = s.codes

theorem Keyed.burns_revokeChain (h : s.Keyed) (x : String) : s.Burns x (s.revokeChain x).2 := by
  refine ⟨fun y hy => ?_, fun y hy => ?_, rfl, rfl, rfl⟩
  · simp only [record?_revokeChain, if_pos (h.mem_chain.2 hy)]
  · simp only [record?_revokeChain, if_neg fun hm => hy (h.mem_chain.1 hm), Option.map_id']

/-- At most one record has come to a store, a child of a given one. It has not been exchanged, and
is revoked unless that failed too. -/
def Spared (s : Store) (x : String) (past : List StoreEvent) (s' : Store) : Prop :=
  s' = s ∨ ∃ child, s' = s.add child ∧ ¬ s.Known child.refreshId ∧ child.parent = some x ∧
    child.rotated = false ∧ (child.revoked = true ∨ ∃ e, ⟨.revokeRecord child.id, .error e⟩ ∈ past)

end Store

namespace Rotation

variable {G : Reply → Prop} {q : Request} {p : TokenPolicy} {now : Instant} {w : World}

/-- How an exchange can go. -/
inductive Course (G : Reply → Prop) (q : Request) (p : TokenPolicy) (now : Instant) (w : World) :
    Outcome TokenSet → World → List StoreEvent → Prop
  | refused {o : Outcome TokenSet} {w' : World} {past : List StoreEvent}
    (hw : w.Leaves w.store w') (hkind : o.kind = verdict q p now w.store w.ring)
    (hok : o.kind ≠ .ok ()) (hreuse : o.kind ≠ .error .reuseDetected) : Course G q p now w o w' past
  /-- A call fails before anything is changed. -/
  | failed {d : String} {w' : World} {past : List StoreEvent} (hG : Fallible G)
    (hw : w.Leaves w.store w') : Course G q p now w (.error (.serverError d)) w' past
  | burned {w' : World} {past : List StoreEvent}
    (hw : w.Leaves (w.store.revokeChain q.refreshId).2 w')
    (hv : verdict q p now w.store w.ring = .error .reuseDetected) :
    Course G q p now w (.error .reuseDetected) w' past
  | exchanged {tokens : TokenSet} {w' : World} {past : List StoreEvent}
    (hv : verdict q p now w.store w.ring = .ok ()) : Course G q p now w (.ok tokens) w' past
  /-- The child is stored, but its parent cannot be marked. -/
  | undone {d : String} {w' : World} {child : TokenRecord} {past : List StoreEvent}
    (hG : Fallible G) (hv : verdict q p now w.store w.ring = .ok ())
    (hw : w.Leaves (w.store.add child) w') (hnew : ¬ w.store.Known child.refreshId)
    (hparent : child.parent = some q.refreshId) (hrotated : child.rotated = false)
    (hrevoked : child.revoked = true ∨ ∃ e, ⟨.revokeRecord child.id, .error e⟩ ∈ past) :
    Course G q p now w (.error (.serverError d)) w' past
  /-- The child has got an identifier that another record has. -/
  | collided {o : Outcome TokenSet} {w' : World} {past : List StoreEvent}
    (hv : verdict q p now w.store w.ring = .ok ()) (h : ¬ w.store.Fresh past) :
    Course G q p now w o w' past

theorem ensures_burn (r : TokenRecord) : (burn r).Ensures G w fun o w' _ =>
    o = .error .reuseDetected ∧ w.Leaves (w.store.revokeChain r.refreshId).2 w' ∨
      Fallible G ∧ (∃ d, o = .error (.serverError d)) ∧ w.Leaves w.store w' := by
  unfold burn
  refine .tryStore (fun hG e => .inr ⟨hG, ⟨_, rfl⟩, rfl, rfl⟩) ?_
  exact .count (.count (.inl ⟨rfl, rfl, rfl⟩))

theorem Course.mono {o : Outcome TokenSet} {w' : World} {past later : List StoreEvent}
    (h : past ⊆ later) : Course G q p now w o w' past → Course G q p now w o w' later
  | .refused hw hkind hok hreuse => .refused hw hkind hok hreuse
  | .failed hG hw => .failed hG hw
  | .burned hw hv => .burned hw hv
  | .exchanged hv => .exchanged hv
  | .undone hG hv hw hnew hparent hrotated hrevoked =>
    .undone hG hv hw hnew hparent hrotated (hrevoked.imp_right fun ⟨e, he⟩ => ⟨e, h he⟩)
  | .collided hv hfresh => .collided hv (mt (.mono h) hfresh)

/-- What is done with a child that has been minted. -/
theorem ensures_succeed {r child : TokenRecord} {tokens : TokenSet}
    (hr : w.store.record? q.refreshId = some r) (hl : r.live = true)
    (hv : verdict q p now w.store w.ring = .ok ()) (hparent : child.parent = some q.refreshId)
    (hchild : child.live = true) :
    (succeed r child tokens).Ensures G w (Course G q p now w) := by
  unfold succeed
  by_cases hnew : ∀ r' ∈ w.store.records, r'.refreshId ≠ child.refreshId ∧ r'.id ≠ child.id
  · have hunknown : ¬ w.store.Known child.refreshId := by
      rintro ⟨r', hr'⟩
      exact (hnew r' (List.mem_of_find?_eq_some hr')).1 (Store.record?_refreshId hr')
    obtain ⟨hrotated, hrevoked⟩ : child.rotated = false ∧ child.revoked = false := by
      simpa [TokenRecord.live] using hchild
    have hcreate : w.store.perform (.createRecord child) = (.ok (), w.store.add child) :=
      Store.createRecord_of_not_known hunknown
    refine .ofStore (by rw [hcreate]) (fun hG e => .failed hG ⟨rfl, rfl⟩) ?_
    unfold World.after
    rw [hcreate]
    refine .tryStore (fun hG e => .tryStore (fun _ e' => ?_) ?_) ?_
    · exact .undone hG hv ⟨rfl, rfl⟩ hunknown hparent hrotated (.inr ⟨e', by simp⟩)
    · have hrevoke := Store.revokeRecord_add (fun r' hr' => (hnew r' hr').2) hrevoked
      have hstore : ((w.store.add child).perform (.revokeRecord child.id)).2 =
          w.store.add (Store.setRevoked child) := congrArg Prod.snd hrevoke
      exact .undone hG hv ⟨hstore, rfl⟩ hunknown hparent hrotated (.inl rfl)
    · rw [Store.perform_markRotated_add hunknown hr hl]
      exact .exchanged hv
  · refine .tryStore (fun hG e => .failed hG ⟨rfl, rfl⟩) ((ensures_true _ _).mono ?_)
    intro o w' later _
    refine .collided hv fun hfresh => hnew (hfresh child ?_)
    simp [StoreEvent.record?]

theorem Course.of_error {e : TokenError} {past : List StoreEvent}
    (hv : verdict q p now w.store w.ring = .error e) (he : e ≠ .reuseDetected) :
    Course G q p now w (.error e) w past :=
  .refused ⟨rfl, rfl⟩ hv.symm nofun fun h => he (Outcome.error.inj h)

/-- The verdict on a record that may be exchanged is that on its client and what is minted. -/
theorem verdict_of_live {s : Store} {ring : KeyRing} {r : TokenRecord}
    (hr : s.record? q.refreshId = some r) (hl : r.live = true)
    (hclient : ¬ q.client.any (· ≠ r.clientId)) (hexpired : ¬ r.refreshExpired now) :
    verdict q p now s ring = match s.client? r.clientId with
      | none => .error (.clientNotFound r.clientId)
      | some c => (continuation r c.clientId q.audience).verdict p now ring := by
  obtain ⟨hrot, hrev⟩ : r.rotated = false ∧ r.revoked = false := by
    simpa [TokenRecord.live] using hl
  unfold verdict
  rw [hr]
  dsimp only
  rw [if_neg (by simp [hrev]), if_neg (by simp [hrot]), if_neg hclient, if_neg hexpired]

theorem ensures_exchange {r : TokenRecord} (hr : w.store.record? q.refreshId = some r)
    (hl : r.live = true) (hclient : ¬ q.client.any (· ≠ r.clientId))
    (hexpired : ¬ r.refreshExpired now) :
    (exchange r q.audience p now).Ensures G w (Course G q p now w) := by
  have hverdict : verdict q p now w.store w.ring = _ := verdict_of_live hr hl hclient hexpired
  unfold exchange
  refine .resolve (fun hG e => .failed hG ⟨rfl, rfl⟩) (fun hc => ?_) fun c hc => ?_
  · rw [hc] at hverdict
    exact .of_error hverdict nofun
  rw [hc] at hverdict
  refine .mint (fun t hv hminted => ?_) (fun e hv hminted => ?_) fun hv => ?_
  · obtain ⟨hparent, hchild, -⟩ := hminted
    have hq : t.2.parent = some q.refreshId := by rw [hparent, ← Store.record?_refreshId hr]
    refine (ensures_succeed hr hl (hverdict.trans hv) hq hchild).mono fun _ _ _ h => ?_
    exact h.mono (List.subset_cons_self _ _)
  · refine .of_error (hverdict.trans hv) ?_
    rintro rfl
    rcases hminted with h | ⟨d, h⟩ <;> cases h
  · exact .refused ⟨rfl, rfl⟩ (hverdict.trans hv).symm nofun nofun

theorem ensures_rotate : (rotate q p now).Ensures G w (Course G q p now w) := by
  unfold rotate
  refine .ofStore rfl (fun hG e => .failed hG ⟨rfl, rfl⟩) ?_
  rcases hr : w.store.record? q.refreshId with _ | r
  · exact .of_error (by simp only [verdict, hr]) nofun
  dsimp only
  split_ifs with hrev hrot hclient hexpired
  · exact .of_error (by simp only [verdict, hr, if_pos hrev]) nofun
  · have hv : verdict q p now w.store w.ring = .error .reuseDetected := by
      simp only [verdict, hr, if_neg hrev, if_pos hrot]
    refine (ensures_burn r).mono ?_
    rintro _ w' later (⟨rfl, hw⟩ | ⟨hG, ⟨d, rfl⟩, hw⟩)
    · rw [Store.record?_refreshId hr] at hw
      exact .burned hw hv
    · exact .failed hG hw
  · exact .of_error (by simp only [verdict, hr, if_neg hrev, if_neg hrot, if_pos hclient]) nofun
  · refine .of_error ?_ nofun
    simp only [verdict, hr, if_neg hrev, if_neg hrot, if_neg hclient, if_pos hexpired]
  · have hl : r.live = true := by simp [TokenRecord.live, hrev, hrot]
    refine (ensures_exchange hr hl hclient hexpired).mono fun _ _ _ h => ?_
    exact h.mono (List.subset_cons_self _ _)

theorem Course.count {o : Outcome TokenSet} {w' : World} {past : List StoreEvent}
    (meters : Meters) (h : Course G q p now w o w' past) :
    Course G q p now w o { w' with meters } past := by
  cases h with
  | refused hw hkind hok hreuse => exact .refused ⟨hw.store, hw.ring⟩ hkind hok hreuse
  | failed hG hw => exact .failed hG ⟨hw.store, hw.ring⟩
  | burned hw hv => exact .burned ⟨hw.store, hw.ring⟩ hv
  | exchanged hv => exact .exchanged hv
  | undone hG hv hw hnew hparent hrotated hrevoked =>
    exact .undone hG hv ⟨hw.store, hw.ring⟩ hnew hparent hrotated hrevoked
  | collided hv hfresh => exact .collided hv hfresh

theorem ensures_refresh : (refresh q p now).Ensures G w (Course G q p now w) := by
  unfold refresh
  refine .attempt ensures_rotate ?_ ?_ fun _ _ h => h
  · intro t w' past h
    refine .count ?_
    show Course ..
    rw [List.append_nil]
    exact h.count _
  · intro e w' past h
    refine .count ?_
    show Course ..
    rw [List.append_nil]
    exact h.count _

/-- On a store that works an exchange ends as is settled beforehand. -/
theorem Course.kind_eq {o : Outcome TokenSet} {w' : World} {past : List StoreEvent}
    (hG : ¬ Fallible G) (hfresh : w.store.Fresh past) :
    Course G q p now w o w' past → o.kind = verdict q p now w.store w.ring
  | .refused _ hkind _ _ => hkind
  | .failed hG' _ => absurd hG' hG
  | .burned _ hv => hv.symm
  | .exchanged hv => hv.symm
  | .undone hG' _ _ _ _ _ _ => absurd hG' hG
  | .collided _ h => absurd hfresh h

theorem known_of_verdict {s : Store} {ring : KeyRing} (h : verdict q p now s ring = .ok ()) :
    s.Known q.refreshId := by
  unfold verdict at h
  rcases hr : s.record? q.refreshId with _ | r
  · rw [hr] at h
    cases h
  · exact ⟨r, hr⟩

/-- A child makes no difference to its parent's exchange. -/
theorem verdict_add {s : Store} {ring : KeyRing} {child : TokenRecord}
    (hnew : ¬ s.Known child.refreshId) (h : s.Known q.refreshId) :
    verdict q p now (s.add child) ring = verdict q p now s ring := by
  have hne : q.refreshId ≠ child.refreshId := fun he => hnew (he ▸ h)
  unfold verdict
  rw [Store.record?_add hnew, if_neg hne]
  rfl

/-- A replay burns the chain. -/
theorem Course.leaves_of_reuse {o : Outcome TokenSet} {w' : World} {past : List StoreEvent}
    (hG : ¬ Fallible G) (hv : verdict q p now w.store w.ring = .error .reuseDetected)
    (h : Course G q p now w o w' past) :
    o = .error .reuseDetected ∧ w.Leaves (w.store.revokeChain q.refreshId).2 w' := by
  cases h with
  | refused _ hkind _ hreuse => exact absurd (hkind.trans hv) hreuse
  | failed hG' => exact absurd hG' hG
  | burned hw => exact ⟨rfl, hw⟩
  | exchanged hv' | undone _ hv' | collided hv' => cases hv.symm.trans hv'

/-- Unless it has burned the chain, an exchange that fails leaves the store as it is but for a
child, and so it leaves what is settled. -/
theorem Course.spared {e : TokenError} {w' : World} {past : List StoreEvent}
    (he : e ≠ .reuseDetected) (hfresh : w.store.Fresh past)
    (h : Course G q p now w (.error e) w' past) :
    w.store.Spared q.refreshId past w'.store ∧
      verdict q p now w'.store w'.ring = verdict q p now w.store w.ring ∧
      (verdict q p now w.store w.ring = .error .reuseDetected → w'.store = w.store) := by
  cases h with
  | refused hw | failed _ hw =>
    rw [hw.store, hw.ring]
    exact ⟨.inl rfl, rfl, fun _ => rfl⟩
  | burned => exact absurd rfl he
  | undone _ hv hw hnew hparent hrotated hrevoked =>
    rw [hw.store, hw.ring]
    refine ⟨.inr ⟨_, rfl, hnew, hparent, hrotated, hrevoked⟩, ?_, fun hv' => ?_⟩
    · exact verdict_add hnew (known_of_verdict hv)
    · cases hv.symm.trans hv'
  | collided _ h => exact absurd hfresh h

theorem course_refresh (replies : Nat → Reply) (hr : ∀ n, G (replies n)) :
    Course G q p now w (World.complete (refresh q p now) w replies).1
      (World.complete (refresh q p now) w replies).2
      (World.calls (refresh q p now) w replies) := ensures_refresh.complete hr

end Rotation

open Rotation

/-- An exchange that fails leaves all records as they are, but that the error of a reuse has burned
the chain. If the error is one of the server, the exchange may be tried again: on a store that works
it ends then as it would have at first. So a replay that could not burn the chain does so later. -/
theorem failed_refresh {q : Rotation.Request} {p : TokenPolicy} {now : Instant} {w w' : World}
    {e : TokenError} {replies : Nat → Reply} (hkeyed : w.store.Keyed)
    (ho : World.complete (refresh q p now) w replies = (.error e, w'))
    (hfresh : w.store.Fresh (World.calls (refresh q p now) w replies)) :
    (e = .reuseDetected → w.store.Burns q.refreshId w'.store) ∧
    (e ≠ .reuseDetected → w.store.Spared q.refreshId
      (World.calls (refresh q p now) w replies) w'.store) ∧
    (e.retryable → ∀ first later : Nat → Reply,
      (∀ n, (first n).healthy) → (∀ n, (later n).healthy) →
      w.store.Fresh (World.calls (refresh q p now) w first) →
      w'.store.Fresh (World.calls (refresh q p now) w' later) →
      (World.complete (refresh q p now) w' later).1.kind =
        (World.complete (refresh q p now) w first).1.kind) ∧
    (∀ r, w.store.record? q.refreshId = some r → r.rotated = true → r.revoked = false →
      e ≠ .reuseDetected → w'.store = w.store ∧ ∀ later : Nat → Reply,
        (∀ n, (later n).healthy) →
        (World.complete (refresh q p now) w' later).1 = .error .reuseDetected ∧
        w.store.Burns q.refreshId (World.complete (refresh q p now) w' later).2.store) := by
  have hcourse : Course (fun _ => True) q p now w (.error e) w'
      (World.calls (refresh q p now) w replies) := by
    have hany : Course (fun _ => True) q p now w _ _ _ := course_refresh replies fun _ => trivial
    rwa [ho] at hany
  have hspared := fun he : e ≠ .reuseDetected => hcourse.spared he hfresh
  refine ⟨?_, fun he => (hspared he).1, ?_, ?_⟩
  · rintro rfl
    generalize World.calls (refresh q p now) w replies = past at hcourse hfresh
    cases hcourse with
    | refused _ _ _ hreuse => exact absurd rfl hreuse
    | burned hw =>
      rw [hw.store]
      exact hkeyed.burns_revokeChain q.refreshId
    | collided _ h => exact absurd hfresh h
  · intro he first later hfirst hlater hfresh₁ hfresh₂
    have hne : e ≠ .reuseDetected := by
      rintro rfl
      cases he
    have h₁ := (course_refresh first hfirst).kind_eq not_fallible_healthy hfresh₁
    have h₂ := (course_refresh later hlater).kind_eq not_fallible_healthy hfresh₂
    rw [h₁, h₂, (hspared hne).2.1]
  · intro r hr hrot hrev hne
    have hv : verdict q p now w.store w.ring = .error .reuseDetected := by
      simp only [verdict, hr, hrev, hrot]
      rfl
    obtain ⟨-, hsame, hstore⟩ := hspared hne
    refine ⟨hstore hv, fun later hlater => ?_⟩
    obtain ⟨hreuse, hw⟩ :=
      (course_refresh later hlater).leaves_of_reuse not_fallible_healthy (hsame.trans hv)
    refine ⟨hreuse, ?_⟩
    rw [hw.store, hstore hv]
    exact hkeyed.burns_revokeChain q.refreshId

namespace Sample

/-- A world in which tokens have been issued once. -/
def issued : World := ((System.start world).run (.start issuance :: steps 0 1 20)).world

/-- What a source puts into calls of which the store fails in the last ones. -/
def failingFrom (n : Nat) (byte : UInt8) (i : Nat) : Reply :=
  if i < n then reply byte else { reply byte with storeFailure := some (.unavailable "down") }

def presented : Rotation.Request := ⟨refreshId 1, none, []⟩

/-- The child of an exchange has been stored when the store breaks down. -/
def torn : World := (World.complete (refresh presented policy ⟨0, 0⟩) issued (failingFrom 8 2)).2

end Sample

/-- The child is stored, its parent cannot be marked and the child not be revoked. The parent can
still be exchanged. -/
theorem failed_refresh_torn :
    Sample.torn.store.records.map (fun r => (r.parent, r.live)) =
      [(none, true), (some (Sample.refreshId 1), true)] ∧
    Sample.issued.store.Spared (Sample.refreshId 1)
      (World.calls (refresh Sample.presented Sample.policy ⟨0, 0⟩) Sample.issued
        (Sample.failingFrom 8 2)) Sample.torn.store ∧
    (World.complete (refresh Sample.presented Sample.policy ⟨0, 0⟩) Sample.torn
      fun _ => Sample.reply 3).1.kind = .ok () := by
  have ho : World.complete (refresh Sample.presented Sample.policy ⟨0, 0⟩) Sample.issued
      (Sample.failingFrom 8 2) = (.error (.ofStore (.unavailable "down")), Sample.torn) :=
    World.complete_eq (by decide +kernel)
  obtain ⟨hkeyed, hrecords, hfresh, hfirst, hlater, hkind⟩ : Sample.issued.store.Keyed ∧
      Sample.torn.store.records.map (fun r => (r.parent, r.live)) =
        [(none, true), (some (Sample.refreshId 1), true)] ∧
      Sample.issued.store.Fresh
        (World.calls (refresh Sample.presented Sample.policy ⟨0, 0⟩) Sample.issued
          (Sample.failingFrom 8 2)) ∧
      Sample.issued.store.Fresh
        (World.calls (refresh Sample.presented Sample.policy ⟨0, 0⟩) Sample.issued
          fun _ => Sample.reply 2) ∧
      Sample.torn.store.Fresh
        (World.calls (refresh Sample.presented Sample.policy ⟨0, 0⟩) Sample.torn
          fun _ => Sample.reply 3) ∧
      (World.complete (refresh Sample.presented Sample.policy ⟨0, 0⟩) Sample.issued
        fun _ => Sample.reply 2).1.kind = .ok () := by
    unfold Store.Keyed
    decide +kernel
  obtain ⟨-, hspared, hretry, -⟩ := failed_refresh hkeyed ho hfresh
  refine ⟨hrecords, hspared nofun, ?_⟩
  rw [hretry rfl (fun _ => Sample.reply 2) (fun _ => Sample.reply 3) (fun _ => rfl) (fun _ => rfl)
    hfirst hlater]
  exact hkind

end TokenAuthority

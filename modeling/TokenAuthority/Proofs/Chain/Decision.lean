import TokenAuthority.Proofs.Chain.Rejection
import TokenAuthority.Proofs.Chain.Search

/-!
# What an exchange decides and does

On a store that works, an exchange of a refresh token is refused for the first thing that is wrong
with its record (`Rotation.objections`, `verdict_eq`), so that a replay is told before the client and
the expiry are looked at, and a revocation before a replay. What the exchange does follows from how
it ends (`Rotation.Effect`): a success stores one child and marks its parent, a replay revokes what
descends from the record, and any other error leaves the store as it was.
-/

namespace TokenAuthority

open Operation Time

namespace Rotation

variable {q : Request} {p : TokenPolicy} {now : Instant} {w : World}

/-- What can be wrong with the exchange of a record, in the order in which it is looked for. -/
def objections (q : Request) (now : Instant) (s : Store) (ring : KeyRing) (r : TokenRecord) :
    List (Bool × TokenError) :=
  [(r.revoked, .invalidGrant "refresh token revoked"),
    (r.rotated, .reuseDetected),
    (q.client.any (· ≠ r.clientId), .invalidGrant "refresh token issued to another client"),
    (r.refreshExpired now, .refreshExpired),
    ((s.client? r.clientId).isNone, .clientNotFound r.clientId),
    (r.subject == "", .invalidRequest "subject is required"),
    (r.clientId == "", .invalidRequest "client_id is required"),
    (ring.active.isNone, .noActiveKey)]

/-- The first thing that is wrong with an exchange. -/
def objection? (q : Request) (now : Instant) (s : Store) (ring : KeyRing) : Option TokenError :=
  match s.record? q.refreshId with
  | none => some (.invalidGrant "unknown refresh token")
  | some r => ((objections q now s ring r).find? (·.1)).map (·.2)

theorem filled?_some (x : String) : filled? (some x) = if x = "" then none else some x := by
  unfold filled?
  split_ifs with h <;> simp [Option.filter, h]

theorem verdict_continuation {r : TokenRecord} {ring : KeyRing} (audience : List String)
    (haccess : (now.after p.accessLifetime).isSome)
    (hrefresh : (now.after p.refreshLifetime).isSome) :
    (continuation r r.clientId audience).verdict p now ring =
      if r.subject = "" then .error (.invalidRequest "subject is required")
      else if r.clientId = "" then .error (.invalidRequest "client_id is required")
      else if ring.active.isNone then .error .noActiveKey
      else .ok () := by
  obtain ⟨t, ht⟩ := Option.isSome_iff_exists.1 haccess
  obtain ⟨t', ht'⟩ := Option.isSome_iff_exists.1 hrefresh
  unfold Issuance.Mint.verdict ClaimsRequest.build Issuance.claimsRequest continuation
    KeyRing.signingKey
  change _ = if r.userId.getD r.clientId = "" then _ else _
  simp only [filled?_some, ht, ht']
  rcases ring.active with _ | a <;> split_ifs <;> simp_all

/-- What settles an exchange is the first thing that is wrong with it. -/
theorem verdict_eq {s : Store} {ring : KeyRing} (haccess : (now.after p.accessLifetime).isSome)
    (hrefresh : (now.after p.refreshLifetime).isSome) :
    verdict q p now s ring = (objection? q now s ring).elim (.ok ()) .error := by
  unfold verdict objection?
  rcases s.record? q.refreshId with _ | r
  · rfl
  dsimp only
  unfold objections
  rcases hc : s.client? r.clientId with _ | c
  · split_ifs <;> simp_all
  · have hid : c.clientId = r.clientId := by simpa using List.find?_some hc
    dsimp only
    rw [hid, verdict_continuation q.audience haccess hrefresh]
    split_ifs <;> simp_all

/-- One record is added, a live child of the presented one, and the presented one is marked as
exchanged. -/
def Succeeds (s : Store) (q : Request) (t : TokenSet) (s' : Store) : Prop :=
  ∃ r child : TokenRecord, s.record? q.refreshId = some r ∧ child.live = true ∧
    child.parent = some q.refreshId ∧ child.userId = r.userId ∧ child.clientId = r.clientId ∧
    child.scope = r.scope ∧ child.refreshId = Pkce.digest t.refreshToken ∧
    s.record? child.refreshId = none ∧
    s' = { s with records := s.records.map (fun r =>
      if r.refreshId = q.refreshId then { r with rotated := true } else r) ++ [child] }

/-- What an exchange on a store that works does, by the way it ends. -/
inductive Effect (q : Request) (s : Store) : Outcome TokenSet → Store → Prop
  | none {o : Outcome TokenSet} (hok : o.kind ≠ .ok ()) (hreuse : o ≠ .error .reuseDetected) :
    Effect q s o s
  | burn : Effect q s (.error .reuseDetected) (s.revokeChain q.refreshId).2
  | succeed {t : TokenSet} {s' : Store} (h : Succeeds s q t s') : Effect q s (.ok t) s'

theorem Effect.of_error {s : Store} {e : TokenError} (he : e ≠ .reuseDetected) :
    Effect q s (.error e) s := .none nofun fun h => he (Outcome.error.inj h)

theorem change_add {s : Store} {x : String} {child : TokenRecord} (hs : s.Keyed)
    (hchild : ¬ s.Known child.refreshId) (hx : s.Known x) :
    (s.add child).change Store.setRotated x = { s with records := s.records.map (fun r =>
      if r.refreshId = x then { r with rotated := true } else r) ++ [child] } := by
  have hne : child.refreshId ≠ x := fun h => hchild (h ▸ hx)
  have hrecords := (hs.add hchild).records_change Store.setRotated x
  rw [Store.add, List.map_append, List.map_singleton, if_neg hne] at hrecords
  exact congrArg (fun l => { s with records := l }) hrecords

theorem effect_succeed {r child : TokenRecord} {tokens : TokenSet} (hs : w.store.Keyed)
    (hr : w.store.record? q.refreshId = some r) (hl : r.live = true)
    (hminted : Outcome.Minted (continuation r r.clientId q.audience) (.ok (tokens, child))) :
    (succeed r child tokens).Ensures (·.healthy) w fun o w' _ => Effect q w.store o w'.store := by
  obtain ⟨hparent, hlive, hclient, huser, hscope, hid⟩ := hminted
  unfold succeed
  by_cases hchild : w.store.Known child.refreshId
  · exact .declined (Store.createRecord_of_known hchild) (.of_error nofun)
  · refine .answered (Store.createRecord_of_not_known hchild) ?_
    have hmark := Store.perform_markRotated_add hchild hr hl
    refine .tryStore (fun hG => absurd hG not_fallible_healthy) ?_
    rw [hmark]
    refine .succeed ⟨r, child, hr, hlive, ?_, huser, hclient, hscope, hid, ?_, ?_⟩
    · rw [hparent, ← Store.record?_refreshId hr]
      rfl
    · exact Option.eq_none_iff_forall_ne_some.2 fun r' hr' => hchild ⟨r', hr'⟩
    · rw [World.after, hmark]
      exact change_add hs hchild ⟨r, hr⟩

theorem effect_exchange {r : TokenRecord} (hs : w.store.Keyed)
    (hr : w.store.record? q.refreshId = some r) (hl : r.live = true) :
    (exchange r q.audience p now).Ensures (·.healthy) w fun o w' _ => Effect q w.store o w'.store := by
  unfold exchange
  refine .resolve (fun hG => absurd hG not_fallible_healthy) (fun _ => ?_) fun c hc => ?_
  · exact .of_error nofun
  have hid : c.clientId = r.clientId := by simpa using List.find?_some hc
  rw [hid]
  refine .mint (fun t _ hminted => ?_) (fun e _ hminted => ?_) fun _ => ?_
  · exact effect_succeed hs hr hl hminted
  · refine .of_error ?_
    rintro rfl
    rcases hminted with h | ⟨d, h⟩ <;> cases h
  · exact .none nofun nofun

theorem effect_rotate (hs : w.store.Keyed) :
    (rotate q p now).Ensures (·.healthy) w fun o w' _ => Effect q w.store o w'.store := by
  unfold rotate
  refine .answered rfl ?_
  rcases hr : w.store.record? q.refreshId with _ | r
  · exact .of_error nofun
  dsimp only
  split_ifs with hrev hrot hclient hexpired
  · exact .of_error nofun
  · refine (ensures_burn r).mono ?_
    rintro _ w' _ (⟨rfl, hw⟩ | ⟨hG, -⟩)
    · rw [Store.record?_refreshId hr] at hw
      rw [hw.store]
      exact .burn
    · exact absurd hG not_fallible_healthy
  · exact .of_error nofun
  · exact .of_error nofun
  · exact effect_exchange hs hr (by simp [TokenRecord.live, hrev, hrot])

theorem effect_refresh (hs : w.store.Keyed) :
    (refresh q p now).Ensures (·.healthy) w fun o w' _ => Effect q w.store o w'.store := by
  unfold refresh
  refine .attempt (effect_rotate hs) ?_ ?_ fun _ _ h => h
  · exact fun t w' _ h => .count (f := fun _ => pure t) h
  · exact fun e w' _ h => .count (f := fun _ => fail e) h

/-- On a store that works, an exchange that is settled to fail does so. -/
theorem Course.eq_error {G : Reply → Prop} {o : Outcome TokenSet} {w' : World}
    {past : List StoreEvent} {e : TokenError} (hG : ¬ Fallible G)
    (hv : verdict q p now w.store w.ring = .error e) (h : Course G q p now w o w' past) :
    o = .error e := by
  cases h with
  | refused _ hkind => exact Outcome.kind_eq_error.1 (hkind.trans hv)
  | failed hG' => exact absurd hG' hG
  | burned _ hv' =>
    cases hv.symm.trans hv'
    rfl
  | exchanged hv' | undone _ hv' | collided hv' => cases hv.symm.trans hv'

end Rotation

open Rotation

/-- An exchange on a store that works is refused for the first thing that is wrong with its record,
and succeeds if nothing is and the new refresh identifier is not taken. The store changes by a child
and the mark on its parent, or by the revocation of what descends from a replayed record. -/
theorem refresh_decides {q : Rotation.Request} {p : TokenPolicy} {now : Instant} {w w' : World}
    {replies : Nat → Reply} {o : Outcome TokenSet} (hkeyed : w.store.Keyed)
    (hhealthy : ∀ n, (replies n).healthy) (haccess : (now.after p.accessLifetime).isSome)
    (hrefresh : (now.after p.refreshLifetime).isSome)
    (ho : World.complete (refresh q p now) w replies = (o, w')) :
    (∀ e, objection? q now w.store w.ring = some e → o = .error e) ∧
    (objection? q now w.store w.ring = none →
      w.store.Unused (World.calls (refresh q p now) w replies) → ∃ t, o = .ok t) ∧
    (∀ t, o = .ok t → Succeeds w.store q t w'.store) ∧
    (o = .error .reuseDetected → ∃ n, w.store.RevokesBelow q.refreshId n w'.store) ∧
    ∀ e, o = .error e → e ≠ .reuseDetected → w'.store = w.store := by
  have hverdict : verdict q p now w.store w.ring = _ := verdict_eq haccess hrefresh
  obtain ⟨⟨hcourse, hsettles⟩, heffect⟩ :=
    ((ensures_refresh.and settles_refresh).and (effect_refresh hkeyed)).complete hhealthy
  rw [ho] at hcourse hsettles
  replace heffect : Effect q w.store o w'.store := by rwa [ho] at heffect
  generalize w'.store = s' at heffect ⊢
  refine ⟨fun e he => ?_, fun hnone hunused => ?_, ?_, ?_, ?_⟩
  · exact hcourse.eq_error not_fallible_healthy (by rw [hverdict, he]; rfl)
  · rcases hsettles with hkind | ⟨hG | hused, -⟩
    · rw [hverdict, hnone] at hkind
      exact Outcome.kind_eq_ok.1 hkind
    · exact absurd hG not_fallible_healthy
    · exact absurd hunused hused
  · rintro t rfl
    cases heffect with
    | none hok => exact absurd rfl hok
    | succeed h => exact h
  · rintro rfl
    cases heffect with
    | none _ hreuse => exact absurd rfl hreuse
    | burn => exact ⟨_, hkeyed.revokesBelow q.refreshId⟩
  · rintro e rfl he
    cases heffect with
    | none => rfl
    | burn => exact absurd rfl he

namespace Sample

/-- A refresh token that was exchanged comes back from another client after it has expired. -/
def stale : Rotation.Request := ⟨refreshId 1, some "c2", []⟩

end Sample

/-- A first exchange succeeds. Later it counts for more that the token has been exchanged than that
it is another client's and has expired, and its child is revoked. -/
theorem refresh_decides_samples :
    (∃ t, (World.complete (refresh Sample.presented Sample.policy ⟨0, 0⟩) Sample.issued
        fun _ => Sample.reply 2).1 = .ok t ∧
      Succeeds Sample.issued.store Sample.presented t
        (World.complete (refresh Sample.presented Sample.policy ⟨0, 0⟩) Sample.issued
          fun _ => Sample.reply 2).2.store) ∧
    (World.complete (refresh Sample.stale Sample.policy ⟨1000000, 0⟩) Sample.exchanged.world
      fun _ => Sample.reply 3).1 = .error .reuseDetected ∧
    ∃ n, Sample.exchanged.world.store.RevokesBelow (Sample.refreshId 1) n
      (World.complete (refresh Sample.stale Sample.policy ⟨1000000, 0⟩) Sample.exchanged.world
        fun _ => Sample.reply 3).2.store := by
  obtain ⟨hkeyed, hnone, hunused, hkeyed', hreuse⟩ : Sample.issued.store.Keyed ∧
      objection? Sample.presented ⟨0, 0⟩ Sample.issued.store Sample.issued.ring = none ∧
      Sample.issued.store.Unused (World.calls (refresh Sample.presented Sample.policy ⟨0, 0⟩)
        Sample.issued fun _ => Sample.reply 2) ∧
      Sample.exchanged.world.store.Keyed ∧
      objection? Sample.stale ⟨1000000, 0⟩ Sample.exchanged.world.store
        Sample.exchanged.world.ring = some .reuseDetected := by
    decide +kernel
  -- the runs need not be looked into any more
  generalize Sample.issued = w, Sample.exchanged.world = w' at *
  obtain ⟨-, hsucceeds, hadded, -⟩ := @refresh_decides _ Sample.policy ⟨0, 0⟩ _ _
    (fun _ => Sample.reply 2) _ hkeyed (fun _ => rfl) rfl rfl rfl
  obtain ⟨hrefused, -, -, hburned, -⟩ := @refresh_decides _ Sample.policy ⟨1000000, 0⟩ _ _
    (fun _ => Sample.reply 3) _ hkeyed' (fun _ => rfl) rfl rfl rfl
  obtain ⟨t, ht⟩ := hsucceeds hnone hunused
  exact ⟨⟨t, ht, hadded t ht⟩, hrefused _ hreuse, hburned (hrefused _ hreuse)⟩

end TokenAuthority

import TokenAuthority.Proofs.Code.Retry
import TokenAuthority.Proofs.Records

/-!
# Refused refresh tokens

An exchange of a refresh token ends as the store and the key ring have settled, unless a call fails
or its refresh identifier is taken (`Rotation.Settles`). Where neither happens and every record has
a client, what is settled is a success or one of five refusals (`Rotation.Refuses`), which a client
cannot tell apart: it gets one and the same body (`answer_of_renewal`), so that an answer says
nothing about the refresh token, in whatever state it is given (`refusals_alike`).
-/

namespace TokenAuthority

open Operation Time

/-- The refresh identifiers that were to be stored are new. -/
def Store.Unused (s : Store) (past : List StoreEvent) : Prop :=
  ∀ r ∈ past.filterMap StoreEvent.record?, s.record? r.refreshId = none

instance (s : Store) (past : List StoreEvent) : Decidable (s.Unused past) :=
  inferInstanceAs (Decidable (∀ r ∈ past.filterMap StoreEvent.record?,
    s.record? r.refreshId = none))

theorem Store.Unused.mono {s : Store} {past later : List StoreEvent} (h : past ⊆ later)
    (hunused : s.Unused later) : s.Unused past := fun r hr =>
  hunused r (List.filterMap_subset _ h hr)

namespace Rotation

variable {G : Reply → Prop} {q : Request} {p : TokenPolicy} {now : Instant} {w : World}

/-- An exchange ends as is settled, or with an error of the server that has a cause. -/
inductive Settles (G : Reply → Prop) (q : Request) (p : TokenPolicy) (now : Instant) (w : World)
    (o : Outcome TokenSet) (past : List StoreEvent) : Prop
  | settled (hkind : o.kind = verdict q p now w.store w.ring)
  | failed {d : String} (hcause : Fallible G ∨ ¬ w.store.Unused past)
    (ho : o = .error (.serverError d))

theorem Settles.mono {o : Outcome TokenSet} {past later : List StoreEvent} (h : past ⊆ later) :
    Settles G q p now w o past → Settles G q p now w o later
  | .settled hkind => .settled hkind
  | .failed hcause ho => .failed (hcause.imp_right (mt (.mono h))) ho

theorem settles_succeed {r child : TokenRecord} {tokens : TokenSet}
    (hr : w.store.record? q.refreshId = some r) (hl : r.live = true)
    (hv : verdict q p now w.store w.ring = .ok ()) :
    (succeed r child tokens).Ensures G w fun o _ past => Settles G q p now w o past := by
  unfold succeed
  by_cases hchild : w.store.Known child.refreshId
  · have hcreate : w.store.perform (.createRecord child) = _ :=
      Store.createRecord_of_known hchild
    refine .refused (by rw [hcreate]) (fun hG e => .failed (.inl hG) rfl) ?_
    refine .failed (.inr fun hunused => ?_) rfl
    obtain ⟨r', hr'⟩ := hchild
    have hnone := hunused child (by simp [StoreEvent.record?])
    cases hnone.symm.trans hr'
  · have hcreate : w.store.perform (.createRecord child) = (.ok (), w.store.add child) :=
      Store.createRecord_of_not_known hchild
    refine .ofStore (by rw [hcreate]) (fun hG e => .failed (.inl hG) rfl) ?_
    unfold World.after
    rw [hcreate]
    refine .tryStore (fun hG e => .tryStore (fun _ _ => ?_) ?_) ?_
    · exact .failed (.inl hG) rfl
    · exact .failed (.inl hG) rfl
    · rw [Store.perform_markRotated_add hchild hr hl]
      exact .settled hv.symm

theorem settles_exchange {r : TokenRecord} (hr : w.store.record? q.refreshId = some r)
    (hl : r.live = true) (hclient : ¬ q.client.any (· ≠ r.clientId))
    (hexpired : ¬ r.refreshExpired now) :
    (exchange r q.audience p now).Ensures G w fun o _ past => Settles G q p now w o past := by
  have hverdict : verdict q p now w.store w.ring = _ := verdict_of_live hr hl hclient hexpired
  unfold exchange
  refine .resolve (fun hG e => .failed (.inl hG) rfl) (fun hc => ?_) fun c hc => ?_
  · rw [hc] at hverdict
    exact .settled hverdict.symm
  rw [hc] at hverdict
  refine .mint (fun t hv _ => ?_) (fun e hv _ => ?_) fun hv => ?_
  · refine (settles_succeed hr hl (hverdict.trans hv)).mono fun _ _ _ h => ?_
    exact h.mono (List.subset_cons_self _ _)
  · exact .settled (hverdict.trans hv).symm
  · exact .settled (hverdict.trans hv).symm

theorem settles_rotate :
    (rotate q p now).Ensures G w fun o _ past => Settles G q p now w o past := by
  unfold rotate
  refine .ofStore rfl (fun hG e => .failed (.inl hG) rfl) ?_
  rcases hr : w.store.record? q.refreshId with _ | r
  · exact .settled (by simp only [verdict, hr]; rfl)
  dsimp only
  split_ifs with hrev hrot hclient hexpired
  · exact .settled (by simp only [verdict, hr, if_pos hrev]; rfl)
  · refine (ensures_burn r).mono ?_
    rintro _ w' later (⟨rfl, -⟩ | ⟨hG, ⟨d, rfl⟩, -⟩)
    · exact .settled (by simp only [verdict, hr, if_neg hrev, if_pos hrot]; rfl)
    · exact .failed (.inl hG) rfl
  · refine .settled ?_
    simp only [verdict, hr, if_neg hrev, if_neg hrot, if_pos hclient]
    rfl
  · refine .settled ?_
    simp only [verdict, hr, if_neg hrev, if_neg hrot, if_neg hclient, if_pos hexpired]
    rfl
  · have hl : r.live = true := by simp [TokenRecord.live, hrev, hrot]
    refine (settles_exchange hr hl hclient hexpired).mono fun _ _ _ h => ?_
    exact h.mono (List.subset_cons_self _ _)

theorem settles_refresh :
    (refresh q p now).Ensures G w fun o _ past => Settles G q p now w o past := by
  unfold refresh
  refine .attempt settles_rotate ?_ ?_ fun _ _ h => h
  · intro t w' past h
    refine .count ?_
    show Settles ..
    rwa [List.append_nil]
  · intro e w' past h
    refine .count ?_
    show Settles ..
    rwa [List.append_nil]

/-- The errors of a refresh token that cannot be exchanged. -/
inductive Refuses : TokenError → Prop
  | grant (reason : String) : Refuses (.invalidGrant reason)
  | reuse : Refuses .reuseDetected
  | expired : Refuses .refreshExpired

/-- If a record has a client and can be continued, its refresh token is exchanged or refused. -/
theorem refuses_of_verdict {s : Store} {ring : KeyRing}
    (hmint : ∀ r c, s.record? q.refreshId = some r → s.client? r.clientId = some c →
      (continuation r c.clientId q.audience).verdict p now ring = .ok ())
    (hclients : ∀ r, s.record? q.refreshId = some r → (s.client? r.clientId).isSome) :
    verdict q p now s ring = .ok () ∨ ∃ e, verdict q p now s ring = .error e ∧ Refuses e := by
  unfold verdict
  rcases hr : s.record? q.refreshId with _ | r
  · exact .inr ⟨_, rfl, .grant _⟩
  dsimp only
  split_ifs
  · exact .inr ⟨_, rfl, .grant _⟩
  · exact .inr ⟨_, rfl, .reuse⟩
  · exact .inr ⟨_, rfl, .grant _⟩
  · exact .inr ⟨_, rfl, .expired⟩
  · obtain ⟨c, hc⟩ := Option.isSome_iff_exists.1 (hclients r hr)
    rw [hc]
    exact .inl (hmint r c hr hc)

end Rotation

open Rotation

/-- What continues a record that names a subject and a client is minted, if there is a key and no
lifetime is too long. -/
theorem TokenRecord.Filled.verdict_continuation {r : TokenRecord} (h : r.Filled)
    (audience : List String) {p : TokenPolicy} {now : Instant} {ring : KeyRing}
    (hring : ring.Signs) (haccess : (now.after p.accessLifetime).isSome)
    (hrefresh : (now.after p.refreshLifetime).isSome) :
    (continuation r r.clientId audience).verdict p now ring = .ok () := by
  obtain ⟨key, hkey⟩ := hring
  obtain ⟨t, ht⟩ := Option.isSome_iff_exists.1 haccess
  obtain ⟨t', ht'⟩ := Option.isSome_iff_exists.1 hrefresh
  have hsubject : filled? (some (r.userId.getD r.clientId)) = some r.subject :=
    Option.filter_some_pos (by simpa [TokenRecord.subject] using h.subject)
  have hclient : filled? (some r.clientId) = some r.clientId :=
    Option.filter_some_pos (by simpa using h.clientId)
  unfold Issuance.Mint.verdict ClaimsRequest.build Issuance.claimsRequest continuation
  simp only [hsubject, hclient, hkey, ht, ht']

/-- Store and key generator work, and no lifetime that begins now is too long. -/
structure Reply.Serves (p : TokenPolicy) (reply : Reply) : Prop where
  store : reply.healthy
  keys : reply.keyFailure = none
  access : (reply.clock.instant.after p.accessLifetime).isSome
  refresh : (reply.clock.instant.after p.refreshLifetime).isSome

theorem not_fallible_serves (p : TokenPolicy) : ¬ Fallible (Reply.Serves p) :=
  fun ⟨reply, e, hserves, he⟩ => not_fallible_healthy ⟨reply, e, hserves.store, he⟩

namespace Endpoint

variable {e : Endpoint} {r : TokenRequest} {w : World}

/-- The one body that a client gets for a refresh token that cannot be exchanged. -/
def refusal (state : Option String) : ErrorBody :=
  ⟨"invalid_grant", some "The provided grant is invalid, expired, or revoked", state, 400⟩

theorem ofError_of_refuses {err : TokenError} (h : Refuses err) (state : Option String) :
    ErrorBody.ofError err state = refusal state := by
  cases h <;> rfl

theorem require_of_filled (name : String) {value : Option String} (h : (filled? value).isSome) :
    ∃ v, TokenRequest.require name value = .ok v := by
  obtain ⟨v, hv⟩ := Option.isSome_iff_exists.1 h
  exact ⟨v, by rw [TokenRequest.require, hv]⟩

/-- A request has ended as an exchange did after a rotation of the signing key. -/
structure Exchanged (G : Reply → Prop) (p : TokenPolicy) (w : World) (o : Outcome TokenResponse)
    (past : List StoreEvent) (w₁ : World) (q : Rotation.Request) (served : Reply)
    (o' : Outcome TokenSet) : Prop where
  good : G served
  store : w₁.store = w.store
  signs : (∀ reply, G reply → reply.keyFailure = none) → w₁.ring.Signs
  kind : o'.kind = o.kind
  settles : Settles G q p served.clock w₁ o' past

theorem ensures_renewal {G : Reply → Prop} (htype : r.grantType = "refresh_token")
    (htoken : (filled? r.refreshToken).isSome) (hclient : (filled? r.clientId).isSome) :
    (e.exchange r).Ensures G w fun o _ past => ∃ w₁ q served o',
      Exchanged G e.tokenPolicy w o past w₁ q served o' := by
  unfold exchange
  rw [if_neg (by rw [htype]; decide), if_pos htype]
  refine .afterRotation fun w₁ hstore hsigns => ?_
  obtain ⟨token, htoken⟩ := require_of_filled "refresh_token" htoken
  obtain ⟨clientId, hclient⟩ := require_of_filled "client_id" hclient
  unfold refreshGrant
  rw [htoken, hclient]
  refine .clock fun served hserved => settles_refresh.bind fun o w₂ past h => ?_
  have hend : ∀ {o' : Outcome TokenResponse}, o.kind = o'.kind → ∃ w₁ q served o,
      Exchanged G e.tokenPolicy w o' past w₁ q served o :=
    fun hkind => ⟨w₁, _, served, o, hserved, hstore, hsigns, hkind, h⟩
  rcases o with t | err | _
  · show ∃ w₁ q served o, Exchanged G e.tokenPolicy w _ (past ++ []) w₁ q served o
    rw [List.append_nil]
    exact hend rfl
  · exact hend rfl
  · exact hend rfl

/-- Of records that have all been filled and registered, a refresh token is exchanged or refused. -/
theorem Exchanged.refuses {p : TokenPolicy} {o : Outcome TokenResponse} {past : List StoreEvent}
    {w₁ : World} {q : Rotation.Request} {served : Reply} {o' : Outcome TokenSet}
    (h : Exchanged (Reply.Serves p) p w o past w₁ q served o')
    (hfilled : w.store.All TokenRecord.Filled)
    (hclients : ∀ rec ∈ w.store.records, (w.store.client? rec.clientId).isSome)
    (hunused : w.store.Unused past) :
    o.kind = .ok () ∨ ∃ err, o.kind = .error err ∧ Refuses err := by
  rw [← h.kind]
  rcases h.settles with hkind | ⟨hG | hused, -⟩
  · rw [hkind, h.store]
    refine refuses_of_verdict (fun rec c hrec hc => ?_) fun rec hrec => ?_
    · have hid : c.clientId = rec.clientId := by simpa using List.find?_some hc
      rw [hid]
      exact (hfilled _ rec hrec).verdict_continuation _ (h.signs fun _ hs => hs.keys)
        h.good.access h.good.refresh
    · exact hclients rec (List.mem_of_find?_eq_some hrec)
  · exact absurd hG (not_fallible_serves p)
  · rw [h.store] at hused
    exact absurd hunused hused

/-- A client presents a refresh token while all works, in a world that requests have led to and in
which every record has a registered client. -/
structure Renews (e : Endpoint) (r : TokenRequest) (w : World) (replies : Nat → Reply) :
    Prop where
  grantType : r.grantType = "refresh_token"
  refreshToken : (filled? r.refreshToken).isSome
  clientId : (filled? r.clientId).isSome
  reached : ∃ w₀ moves, w₀.store.records = [] ∧ w = ((System.start w₀).run moves).world
  registered : ∀ rec ∈ w.store.records, (w.store.client? rec.clientId).isSome
  serves : ∀ n, (replies n).Serves e.tokenPolicy
  unused : w.store.Unused (World.calls (e.token r) w replies)

/-- Whatever is wrong with a refresh token, the answer is the same. -/
theorem answer_of_renewal {replies : Nat → Reply} (h : e.Renews r w replies) :
    (∃ t, (World.complete (e.token r) w replies).1 = .ok (.ok t)) ∨
      (World.complete (e.token r) w replies).1 = .ok (.error (refusal r.state)) := by
  have hfilled : w.store.All TokenRecord.Filled := by
    obtain ⟨w₀, moves, hrecords, rfl⟩ := h.reached
    exact filled_run hrecords moves
  have hensures : (e.token r).Ensures (Reply.Serves e.tokenPolicy) w fun o _ past =>
      w.store.Unused past → (∃ t, o = .ok (.ok t)) ∨ o = .ok (.error (refusal r.state)) := by
    unfold token
    refine .attempt (ensures_renewal h.grantType h.refreshToken h.clientId) ?_ ?_ ?_
    · exact fun t _ _ _ _ => .inl ⟨t, rfl⟩
    · rintro err _ past ⟨w₁, q, served, o', hx⟩ hunused
      rw [List.append_nil] at hunused
      rcases hx.refuses hfilled h.registered hunused with hok | ⟨err', herr, hrefuses⟩
      · cases hok
      · cases herr
        exact .inr (congrArg (fun b => Outcome.ok (Except.error b))
          (ofError_of_refuses hrefuses r.state))
    · rintro _ past ⟨w₁, q, served, o', hx⟩ hunused
      rcases hx.refuses hfilled h.registered hunused with hok | ⟨_, herr, -⟩
      · cases hok
      · cases herr
  exact hensures.complete h.serves h.unused

end Endpoint

/-- Refused refresh tokens get the same answer, whatever is wrong with them and whatever has
happened before. -/
theorem refusals_alike {e e' : Endpoint} {r r' : TokenRequest} {w w' : World}
    {replies replies' : Nat → Reply} {b b' : ErrorBody} (h : e.Renews r w replies)
    (h' : e'.Renews r' w' replies') (hstate : r.state = r'.state)
    (hb : (World.complete (e.token r) w replies).1 = .ok (.error b))
    (hb' : (World.complete (e'.token r') w' replies').1 = .ok (.error b')) : b = b' := by
  have heq : ∀ {e : Endpoint} {r : TokenRequest} {w : World} {replies : Nat → Reply}
      {b : ErrorBody}, e.Renews r w replies →
      (World.complete (e.token r) w replies).1 = .ok (.error b) → b = Endpoint.refusal r.state := by
    intro e r w replies b h hb
    rcases Endpoint.answer_of_renewal h with ⟨t, ht⟩ | hrefused
    · cases hb.symm.trans ht
    · cases hb.symm.trans hrefused
      rfl
  rw [heq h hb, heq h' hb', hstate]

instance decEqExcept {ε α : Type} [DecidableEq ε] [DecidableEq α] : DecidableEq (Except ε α)
  | .error e, .error e' => decidable_of_iff (e = e') (by simp)
  | .ok a, .ok a' => decidable_of_iff (a = a') (by simp)
  | .error _, .ok _ => isFalse nofun
  | .ok _, .error _ => isFalse nofun

namespace Sample

/-- A refresh token that has been exchanged, or that nobody has been given, is presented. -/
def presents (byte : UInt8) : TokenRequest :=
  ⟨"refresh_token", none, none, some "c1", none, some (refreshToken byte), some "s"⟩

theorem serves (byte : UInt8) : (reply byte).Serves policy :=
  ⟨rfl, rfl, (by decide : ((⟨0⟩ : Timestamp).instant.after policy.accessLifetime).isSome),
    (by decide : ((⟨0⟩ : Timestamp).instant.after policy.refreshLifetime).isSome)⟩

end Sample

/-- A replay after an exchange, which burns the chain, and a guess where nothing has been issued. -/
theorem refusals_alike_replay : ∃ b,
    (World.complete (Sample.endpoint.token (Sample.presents 1)) Sample.exchanged.world
      fun _ => Sample.reply 3).1 = .ok (.error b) ∧
    (World.complete (Sample.endpoint.token (Sample.presents 9)) Sample.world
      fun _ => Sample.reply 3).1 = .ok (.error b) := by
  obtain ⟨hb, hb', hregistered, hunused, hunused'⟩ :
      (World.complete (Sample.endpoint.token (Sample.presents 1)) Sample.exchanged.world
        fun _ => Sample.reply 3).1 = .ok (.error (.ofError .reuseDetected (some "s"))) ∧
      (World.complete (Sample.endpoint.token (Sample.presents 9)) Sample.world
        fun _ => Sample.reply 3).1 =
          .ok (.error (.ofError (.invalidGrant "unknown refresh token") (some "s"))) ∧
      (∀ rec ∈ Sample.exchanged.world.store.records,
        (Sample.exchanged.world.store.client? rec.clientId).isSome) ∧
      Sample.exchanged.world.store.Unused (World.calls
        (Sample.endpoint.token (Sample.presents 1)) Sample.exchanged.world
        fun _ => Sample.reply 3) ∧
      Sample.world.store.Unused (World.calls (Sample.endpoint.token (Sample.presents 9))
        Sample.world fun _ => Sample.reply 3) := by
    decide +kernel
  have hreplay : Sample.endpoint.Renews (Sample.presents 1) Sample.exchanged.world
      fun _ => Sample.reply 3 :=
    ⟨rfl, by decide +kernel, rfl, ⟨Sample.world, _, rfl, rfl⟩, hregistered,
      fun _ => Sample.serves 3, hunused⟩
  have hguess : Sample.endpoint.Renews (Sample.presents 9) Sample.world
      fun _ => Sample.reply 3 :=
    ⟨rfl, by decide +kernel, rfl, ⟨Sample.world, [], rfl, rfl⟩, nofun, fun _ => Sample.serves 3,
      hunused'⟩
  exact ⟨_, hb, refusals_alike hreplay hguess rfl hb hb' ▸ hb'⟩

end TokenAuthority

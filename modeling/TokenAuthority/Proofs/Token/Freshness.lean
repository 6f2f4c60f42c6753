import TokenAuthority.Proofs.Code.Retry
import TokenAuthority.Proofs.Keys.Custody
import TokenAuthority.Proofs.Token.Validity

/-!
# Fresh tokens

What an exchange of a code gives is signed by the key that is active when it ends
(`yields_exchange`): once the key has been seen to, nothing changes the ring (`Operation.Gives`). So
at the instant of the exchange the tokens are valid if their lifetimes are not zero
(`Claims.lt_exp_iff`). Settings that are accepted make sure of that for the access token, but not
for the ID token (`fresh_tokens`).
-/

namespace TokenAuthority

open Operation Time

variable {α β : Type} {G : Reply → Prop} {ring : KeyRing}

/-- A call that is idle leaves the ring. -/
theorem Call.IsIdle.ring_perform {c : Call} (hc : c.IsIdle) (reply : Reply) (w : World) :
    (w.perform reply c).2.ring = w.ring := by
  unfold World.perform
  cases c with
  | store c => rcases reply.storeFailure with _ | e <;> rfl
  | generateKey | installKey | rotateKey => exact hc.elim
  | _ => rfl

namespace Operation

/-- An operation that finds a ring leaves it, and its result, if there is one, is as it should
be. -/
def Gives (G : Reply → Prop) (ring : KeyRing) (x : Operation α) (P : α → Prop) : Prop :=
  ∀ w : World, w.ring = ring → x.Ensures G w fun o w' _ => w'.ring = ring ∧ o.Yields P

section Rules

variable {P : α → Prop} {K : β → Prop}

theorem Gives.bind {x : Operation α} {f : α → Operation β} (hx : x.Gives G ring P)
    (hf : ∀ a, P a → (f a).Gives G ring K) : (x >>= f).Gives G ring K := by
  intro w hw
  refine (hx w hw).bind ?_
  rintro (a | e | _) w' past ⟨hw', ha⟩
  · exact hf a ha w' hw'
  · exact ⟨hw', trivial⟩
  · exact ⟨hw', trivial⟩

theorem gives_pure {a : α} (h : P a) : (pure a : Operation α).Gives G ring P :=
  fun _ hw => ⟨hw, h⟩

theorem gives_idle : ∀ {x : Operation α} [Idle x], x.Gives G ring fun _ => True
  | done o, _, _, hw => ⟨hw, by cases o <;> trivial⟩
  | call c next, hx, w, hw => fun reply _ => by
    have : Idle (next (w.perform reply c).1) := ⟨hx.obeys.2 _ (w.credible_perform reply c)⟩
    exact gives_idle _ ((hx.obeys.1.ring_perform reply w).trans hw)

/-- What comes before is idle, and its result makes no difference. -/
theorem gives_after_idle {x : Operation α} [Idle x] {f : α → Operation β}
    (hf : ∀ a, (f a).Gives G ring K) : (x >>= f).Gives G ring K :=
  gives_idle.bind fun a _ => hf a

theorem gives_ofStore {c : StoreCall} {f : c.Result → Operation β}
    (hf : ∀ r, (f r).Gives G ring K) : (ofStore c >>= f).Gives G ring K := by
  have : Idle (ofStore c) := by
    rw [← bind_pure (ofStore c)]
    exact idle_ofStore fun _ => inferInstance
  exact gives_after_idle hf

theorem gives_ofExcept {x : Except TokenError α} : (ofExcept x).Gives G ring (x = .ok ·) := by
  rcases x with e | a
  · exact fun _ hw => ⟨hw, trivial⟩
  · exact gives_pure rfl

theorem gives_after {now : Instant} {lifetime : Duration} :
    (Operation.after now lifetime).Gives G ring (now.after lifetime = some ·) := by
  unfold Operation.after
  rcases now.after lifetime with _ | t
  · exact fun _ hw => ⟨hw, trivial⟩
  · exact gives_pure rfl

theorem gives_clock : (ask .clock).Gives G ring fun now => ∃ reply, G reply ∧ reply.clock = now :=
  fun _ hw reply hreply => ⟨hw, reply, hreply, rfl⟩

end Rules

end Operation

namespace Signing

theorem gives_sign (payload : Json) : (sign payload).Gives G ring fun t =>
    ∃ key random, ring.active = some key ∧ t = Jws.sign key random payload := by
  intro w hw
  unfold sign
  refine .ring (.ofExcept (fun key hkey => .random fun random => ⟨hw, ?_⟩) fun _ _ => ⟨hw, trivial⟩)
  rw [hw, KeyRing.signingKey] at hkey
  split at hkey <;> cases hkey
  exact ⟨_, random, ‹_›, rfl⟩

end Signing

namespace Issuance

/-- Tokens are signed by a key, as was asked for. -/
structure Mint.SignedBy (m : Mint) (p : TokenPolicy) (now : Instant) (key : SigningKey)
    (accessToken : String) (idToken : Option String) : Prop where
  claims : ∃ jti c, (claimsRequest m p now).build jti = .ok c ∧
    (∃ random, accessToken =
      Jws.sign key random (c.expiringAfter p.accessLifetime.seconds).toJson) ∧
    (m.withIdToken → ∃ random, idToken = some (Jws.sign key random
      (IdClaims.mk (c.expiringAfter p.idLifetime.seconds) ((some accessToken).map atHash)).toJson))
  lifetime : ∃ t, now.after p.accessLifetime = some t

theorem gives_mint (m : Mint) (p : TokenPolicy) (now : Instant) :
    (mint m p now).Gives G ring fun t => ∃ key, ring.active = some key ∧
      m.SignedBy p now key t.1.accessToken t.1.idToken := by
  unfold mint
  refine gives_after_idle fun bytes => gives_ofExcept.bind fun c hbuild => ?_
  refine (Signing.gives_sign _).bind fun accessToken ⟨key, random, hkey, haccess⟩ => ?_
  extract_lets finish
  have hfinish : ∀ idToken : Option String,
      (m.withIdToken → ∃ random, idToken = some (Jws.sign key random (IdClaims.mk
        (c.expiringAfter p.idLifetime.seconds) ((some accessToken).map atHash)).toJson)) →
      (finish idToken).Gives G ring fun t => ∃ key, ring.active = some key ∧
        m.SignedBy p now key t.1.accessToken t.1.idToken := by
    intro idToken hid
    refine gives_after_idle fun _ => gives_after_idle fun _ => gives_after_idle fun _ => ?_
    refine gives_after.bind fun expiresAt hexpires => gives_pure ?_
    exact ⟨key, hkey, ⟨_, c, hbuild, ⟨random, haccess⟩, hid⟩, expiresAt, hexpires⟩
  split_ifs at hfinish ⊢ with hwith
  · rw [bind_map_left]
    refine (Signing.gives_sign _).bind fun idToken ⟨key', random', hkey', hid⟩ => ?_
    obtain rfl : key' = key := Option.some.inj (hkey'.symm.trans hkey)
    exact hfinish (some idToken) fun _ => ⟨random', congrArg some hid⟩
  · exact hfinish none fun h => absurd h hwith

theorem gives_issue (r : IssueRequest) (p : TokenPolicy) (now : Instant) :
    (issue r p now).Gives G ring fun t => ∃ key m, ring.active = some key ∧
      Mint.withIdToken m = true ∧ m.SignedBy p now key t.accessToken t.idToken := by
  unfold issue
  refine gives_after_idle fun client => (gives_mint _ p now).bind ?_
  rintro ⟨tokens, record⟩ ⟨key, hkey, hsigned⟩
  refine gives_ofStore fun _ => gives_after_idle fun _ => gives_after_idle fun _ => ?_
  refine gives_after_idle fun _ => gives_after_idle fun _ => gives_pure ?_
  exact ⟨key, _, hkey, rfl, hsigned⟩

end Issuance

namespace Endpoint

/-- An answer is signed by a key of the ring, as something was asked for at an instant of a kind. -/
def SignedIn (G : Reply → Prop) (p : TokenPolicy) (ring : KeyRing) (t : TokenResponse) : Prop :=
  ∃ key m reply, ring.active = some key ∧ G reply ∧ m.withIdToken = true ∧
    Issuance.Mint.SignedBy m p reply.clock key t.accessToken t.idToken

theorem gives_codeGrant (e : Endpoint) (r : TokenRequest) :
    (e.codeGrant r).Gives G ring (SignedIn G e.tokenPolicy ring) := by
  rw [codeGrant_eq]
  refine gives_after_idle fun q => gives_after_idle fun _ => gives_after_idle fun redeemed => ?_
  refine gives_clock.bind fun now ⟨reply, hreply, hnow⟩ => ?_
  refine (Issuance.gives_issue _ e.tokenPolicy now).bind fun t ⟨key, m, hkey, hm, hsigned⟩ => ?_
  exact gives_pure ⟨key, m, reply, hkey, hreply, hm, hnow ▸ hsigned⟩

/-- What an exchange of a code gives is signed by the key that is active then. -/
theorem yields_exchange (e : Endpoint) {r : TokenRequest} (hr : r.grantType = "authorization_code")
    (w : World) : (e.exchange r).Ensures G w fun o w' _ =>
      o.Yields (SignedIn G e.tokenPolicy w'.ring) := by
  have hgrant : ∀ w₁ : World, (e.codeGrant r).Ensures G w₁ fun o w' _ =>
      o.Yields (SignedIn G e.tokenPolicy w'.ring) := by
    intro w₁
    refine (gives_codeGrant e r w₁ rfl).mono fun o w' _ ⟨hw', ho⟩ => ?_
    rwa [hw']
  unfold exchange
  rw [if_pos hr]
  unfold afterRotation
  refine .clock fun reply _ => .attempt (ensures_true _ _) ?_ ?_ fun _ _ _ => trivial
  · exact fun _ w₁ _ _ => hgrant w₁
  · exact fun _ w₁ _ _ => hgrant w₁

end Endpoint

theorem KeyRing.find?_active {key : SigningKey} (h : ring.active = some key) :
    ring.find? key.kid = some key := by
  simp [find?, keys, h]

theorem seconds_le_lastSecond {now t : Instant} {lifetime : Duration}
    (h : now.after lifetime = some t) : now.seconds ≤ Instant.lastSecond := by
  obtain ⟨rfl, hlast⟩ := Instant.after_eq_some h
  rw [Instant.seconds_add] at hlast
  omega

/-- Claims outlive the second of their issue, unless their lifetime is zero. -/
theorem Claims.lt_exp_iff {r : ClaimsRequest} {jti : String} {c : Claims}
    (hbuild : r.build jti = .ok c) (hfirst : 0 ≤ r.issuedAt.seconds)
    (hlast : r.issuedAt.seconds ≤ Instant.lastSecond) {lifetime : UInt64} :
    r.issuedAt.seconds < (c.expiringAfter lifetime).exp.toInt ↔ lifetime ≠ 0 := by
  have hiat : c.iat.toInt = r.issuedAt.seconds := by
    unfold ClaimsRequest.build at hbuild
    split at hbuild <;> cases hbuild
    unfold Instant.lastSecond at hlast
    exact Int64.toInt_ofInt_of_le (by omega) (by omega)
  have hzero : lifetime = 0 ↔ lifetime.toNat = 0 := by rw [← UInt64.toNat_inj]; rfl
  rw [c.toInt_exp_expiringAfter, hiat, ne_eq, hzero]
  unfold Instant.lastSecond at hlast
  unfold lastClaimSecond
  omega

/-- Tokens that have just been issued are valid, if their lifetimes are not zero. -/
theorem Issuance.Mint.SignedBy.inspect {m : Mint} {p : TokenPolicy} {now : Instant}
    {key : SigningKey} {accessToken : String} {idToken : Option String}
    (h : m.SignedBy p now key accessToken idToken) (hm : m.withIdToken = true)
    (hkey : ring.find? key.kid = some key) (hnow : 0 ≤ now.seconds) :
    (p.accessLifetime.seconds ≠ 0 → ∃ c, Jws.inspect .access ring now.seconds accessToken = .ok c) ∧
    ∃ text, idToken = some text ∧
      (p.idLifetime.seconds ≠ 0 → ∃ c, Jws.inspect .idToken ring now.seconds text = .ok c) ∧
      (p.idLifetime.seconds = 0 → ∃ r, Jws.inspect .idToken ring now.seconds text = .error r) := by
  obtain ⟨⟨jti, c, hbuild, ⟨random, rfl⟩, hid⟩, t, ht⟩ := h
  obtain ⟨random', rfl⟩ := hid hm
  have hexp : ∀ {lifetime}, now.seconds < (c.expiringAfter lifetime).exp.toInt ↔ lifetime ≠ 0 :=
    Claims.lt_exp_iff hbuild hnow (seconds_le_lastSecond ht)
  obtain ⟨hvalid, -⟩ := Jws.inspect_sign hkey
    (Jws.claims?_access key random (c.expiringAfter p.accessLifetime.seconds)) hnow
  obtain ⟨hvalid', hexpired'⟩ := Jws.inspect_sign hkey (Jws.claims?_idToken key random' _) hnow
  refine ⟨fun h => ⟨_, hvalid (hexp.2 h)⟩, _, rfl, fun h => ⟨_, hvalid' (hexp.2 h)⟩, fun h => ?_⟩
  exact hexpired' (Int.not_lt.1 fun hlt => hexp.1 hlt h)

/-- Settings are given only if they have passed the check of their lifetimes. -/
theorem Settings.exists_checked {lookup : String → Option String} {s : Settings}
    (h : ofVariables lookup = .ok s) : ∃ s', checked s' = .ok s := by
  unfold ofVariables at h
  rcases hread : read lookup with e | s' <;> rw [hread] at h
  · cases h
  · exact ⟨s', h⟩

theorem Settings.accessLifetime_ne_zero {lookup : String → Option String} {s : Settings}
    (h : ofVariables lookup = .ok s) : s.accessLifetime ≠ 0 := by
  obtain ⟨s', hs⟩ := exists_checked h
  unfold checked at hs
  split_ifs at hs with hlifetimes
  cases hs
  exact fun hzero => hlifetimes (.inl hzero)

section Exchange

variable {e : Endpoint} {r : TokenRequest} {now : Timestamp} {w w' : World} {t : TokenResponse}
  {replies replies' : Nat → Reply}

/-- At the instant of an exchange its tokens are valid, if their lifetimes are not zero. -/
theorem verify_of_exchange (hr : r.grantType = "authorization_code") (hnow : 0 ≤ now.seconds)
    (hclock : ∀ n, (replies n).clock = now) (hclock' : ∀ n, (replies' n).clock = now)
    (ho : World.complete (e.exchange r) w replies = (.ok t, w')) :
    (e.tokenPolicy.accessLifetime.seconds ≠ 0 → ∃ c,
      World.complete (Signing.verify .access t.accessToken) w' replies' = (.ok c, w')) ∧
    ∃ text, t.idToken = some text ∧
      (e.tokenPolicy.idLifetime.seconds ≠ 0 → ∃ c,
        World.complete (Signing.verify .idToken text) w' replies' = (.ok c, w')) ∧
      (e.tokenPolicy.idLifetime.seconds = 0 → ∃ m,
        World.complete (Signing.verify .idToken text) w' replies' =
          (.error (.invalidToken m), w')) := by
  have hyields := (Endpoint.yields_exchange (G := fun reply => reply.clock = now) e hr w).complete
    hclock
  rw [ho] at hyields
  obtain ⟨key, m, reply, hkey, rfl, hm, hsigned⟩ := hyields
  obtain ⟨haccess, text, htext, hvalid, hexpired⟩ :=
    hsigned.inspect hm (KeyRing.find?_active hkey) hnow
  simp only [Timestamp.seconds_instant] at haccess hvalid hexpired
  simp only [World.complete_verify, hclock']
  refine ⟨fun h => ?_, text, htext, fun h => ?_, fun h => ?_⟩
  · obtain ⟨c, hc⟩ := haccess h
    exact ⟨c, by rw [hc]⟩
  · obtain ⟨c, hc⟩ := hvalid h
    exact ⟨c, by rw [hc]⟩
  · obtain ⟨refusal, hrefusal⟩ := hexpired h
    exact ⟨refusal.message, by rw [hrefusal]⟩

/-- Under settings that are accepted, the access token of an exchange is valid at once, and the ID
token is so if its lifetime is not zero. -/
theorem fresh_tokens {lookup : String → Option String} {s : Settings}
    (hs : Settings.ofVariables lookup = .ok s) (hr : r.grantType = "authorization_code")
    (hnow : 0 ≤ now.seconds) (hclock : ∀ n, (replies n).clock = now)
    (hclock' : ∀ n, (replies' n).clock = now)
    (ho : World.complete ((Endpoint.ofSettings s).exchange r) w replies = (.ok t, w')) :
    (∃ c, World.complete (Signing.verify .access t.accessToken) w' replies' = (.ok c, w')) ∧
    ∃ text, t.idToken = some text ∧
      (s.idLifetime ≠ 0 → ∃ c,
        World.complete (Signing.verify .idToken text) w' replies' = (.ok c, w')) ∧
      (s.idLifetime = 0 → ∃ m, World.complete (Signing.verify .idToken text) w' replies' =
        (.error (.invalidToken m), w')) := by
  obtain ⟨haccess, hid⟩ := verify_of_exchange hr hnow hclock hclock' ho
  exact ⟨haccess (Settings.accessLifetime_ne_zero hs), hid⟩

end Exchange

namespace Sample

/-- The lifetime of ID tokens is zero. -/
def instantVariable (name : String) : Option String :=
  if name = "ID_TOKEN_TTL" then some "0" else none

def instantSettings : Settings := { Settings.standard with idLifetime := 0 }

end Sample

theorem fresh_tokens_standard : ∃ t w' text c c',
    World.complete ((Endpoint.ofSettings Settings.standard).exchange Sample.codeRequest)
      Sample.consented (fun _ => Sample.reply 2) = (.ok t, w') ∧
    World.complete (Signing.verify .access t.accessToken) w' (fun _ => Sample.reply 3) =
      (.ok c, w') ∧
    t.idToken = some text ∧
    World.complete (Signing.verify .idToken text) w' (fun _ => Sample.reply 3) = (.ok c', w') := by
  have hkind : (World.complete ((Endpoint.ofSettings Settings.standard).exchange
      Sample.codeRequest) Sample.consented fun _ => Sample.reply 2).1.kind = .ok () := by
    decide +kernel
  obtain ⟨t, ht⟩ := Outcome.kind_eq_ok.1 hkind
  have ho := World.complete_eq ht
  have hread : Settings.ofVariables (fun _ => none) = .ok Settings.standard := rfl
  have hclock : ∀ byte, ∀ _ : Nat, (Sample.reply byte).clock = ⟨0⟩ := fun _ _ => rfl
  obtain ⟨⟨c, haccess⟩, text, htext, hvalid, -⟩ :=
    fresh_tokens hread rfl (by decide) (hclock 2) (hclock 3) ho
  obtain ⟨c', hid⟩ := hvalid (by decide)
  exact ⟨t, _, text, c, c', ho, haccess, htext, hid⟩

/-- The settings are accepted, but the ID token of an exchange is refused at once. -/
theorem instant_id_token : ∃ s t w' text m,
    Settings.ofVariables Sample.instantVariable = .ok s ∧
    World.complete ((Endpoint.ofSettings s).exchange Sample.codeRequest) Sample.consented
      (fun _ => Sample.reply 2) = (.ok t, w') ∧
    t.idToken = some text ∧
    World.complete (Signing.verify .idToken text) w' (fun _ => Sample.reply 3) =
      (.error (.invalidToken m), w') := by
  have hread : Settings.ofVariables Sample.instantVariable = .ok Sample.instantSettings := by
    decide +kernel
  have hkind : (World.complete ((Endpoint.ofSettings Sample.instantSettings).exchange
      Sample.codeRequest) Sample.consented fun _ => Sample.reply 2).1.kind = .ok () := by
    decide +kernel
  obtain ⟨t, ht⟩ := Outcome.kind_eq_ok.1 hkind
  have ho := World.complete_eq ht
  have hclock : ∀ byte, ∀ _ : Nat, (Sample.reply byte).clock = ⟨0⟩ := fun _ _ => rfl
  obtain ⟨-, text, htext, -, hexpired⟩ :=
    verify_of_exchange rfl (by decide) (hclock 2) (hclock 3) ho
  obtain ⟨m, hm⟩ := hexpired rfl
  exact ⟨_, t, _, text, m, hread, ho, htext, hm⟩

end TokenAuthority

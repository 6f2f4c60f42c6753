import TokenAuthority.Proofs.Completion
import TokenAuthority.Proofs.Token.Carriage

/-!
# What is minted

Minting leaves the world as it is and ends in one of four ways, which are settled beforehand
(`Mint.verdict`, `ensures_mint`). What it makes carries the claims that were asked for
(`Mint.Bears`, `bears_mint`): an access token, an ID token that is bound to it if there is to be
one, and a record of them. It needs a key, but it makes no difference which
(`KeyRing.Signs.mint_verdict`).
-/

namespace TokenAuthority

open Operation Time

variable {α : Type} {G : Reply → Prop} {w : World}

namespace Issuance.Mint

/-- How a minting ends. -/
def verdict (m : Mint) (p : TokenPolicy) (now : Instant) (ring : KeyRing) : Outcome Unit :=
  match (claimsRequest m p now).build "", ring.signingKey with
  | .error e, _ => .error e
  | _, .error e => .error e
  | .ok _, .ok _ =>
    match now.after p.refreshLifetime, now.after p.accessLifetime with
    | some _, some _ => .ok ()
    | _, _ => .overflow

/-- The tokens carry the claims that were asked for, and the record tells of the tokens. -/
structure Bears (m : Mint) (p : TokenPolicy) (now : Instant) (t : TokenSet) (r : TokenRecord) :
    Prop where
  claims : ∃ jti claims, (claimsRequest m p now).build jti = .ok claims ∧
    Jws.claims? .access t.accessToken = some (claims.expiringAfter p.accessLifetime.seconds) ∧
    if m.withIdToken then
      ∃ idToken, t.idToken = some idToken ∧ Jws.claims? .idToken idToken =
        some ⟨claims.expiringAfter p.idLifetime.seconds, some (atHash t.accessToken)⟩
    else t.idToken = none
  scope : t.scope = m.request.scope
  expiresIn : t.expiresIn = p.accessLifetime.seconds
  recordId : r.id = t.recordId
  accessToken : r.accessToken = t.accessToken
  refreshExpiresAt : r.refreshExpiresAt = t.refreshExpiresAt
  createdAt : r.createdAt = now

end Issuance.Mint

open Issuance

theorem build_eq_error_iff {r : ClaimsRequest} {jti jti' : String} {e : TokenError} :
    r.build jti = .error e ↔ r.build jti' = .error e := by
  unfold ClaimsRequest.build
  rcases filled? r.subject with _ | subject
  · rfl
  · rcases filled? r.clientId with _ | clientId
    · rfl
    · simp

theorem ensures_sign (payload : Json) :
    (Signing.sign payload).Ensures G w fun o w' past =>
      w' = w ∧ past = [] ∧ o.kind = (Outcome.ofExcept w.ring.signingKey).kind := by
  unfold Signing.sign
  refine .ring (.ofExcept (fun key h => ?_) fun e h => ⟨rfl, rfl, by rw [h]; rfl⟩)
  exact .random fun _ => ⟨rfl, rfl, by rw [h]; rfl⟩

theorem ensures_sign_ok {key : SigningKey} (h : w.ring.signingKey = .ok key) (payload : Json)
    {Q : Outcome α → World → List StoreEvent → Prop} {f : String → Operation α}
    (hf : ∀ t, (f t).Ensures G w Q) : (Signing.sign payload >>= f).Ensures G w Q := by
  refine (ensures_sign payload).bind ?_
  rintro o _ _ ⟨rfl, rfl, ho⟩
  rw [h] at ho
  obtain ⟨t, rfl⟩ := Outcome.kind_eq_ok.1 ho
  exact hf t

theorem ensures_mint (m : Mint) (p : TokenPolicy) (now : Instant) :
    (mint m p now).Ensures G w fun o w' past =>
      w' = w ∧ past = [] ∧ o.kind = m.verdict p now w.ring := by
  unfold mint Mint.verdict
  refine .random fun bytes => .ofExcept (fun claims hbuild => ?_) fun e hbuild => ⟨rfl, rfl, ?_⟩
  · obtain ⟨claims', hbuild⟩ : ∃ c, (claimsRequest m p now).build "" = .ok c := by
      rcases h : (claimsRequest m p now).build "" with e | c
      · rw [build_eq_error_iff.1 h] at hbuild
        cases hbuild
      · exact ⟨c, rfl⟩
    rw [hbuild]
    rcases hkey : w.ring.signingKey with e | key
    · refine (ensures_sign _).bind ?_
      rintro o _ _ ⟨rfl, rfl, ho⟩
      rw [hkey] at ho
      rw [Outcome.kind_eq_error.1 ho]
      exact ⟨rfl, rfl, rfl⟩
    refine ensures_sign_ok hkey _ fun accessToken => ?_
    extract_lets finish
    have hfinish : ∀ idToken, (finish idToken).Ensures G w fun o w' past =>
        w' = w ∧ past = [] ∧ o.kind =
          match now.after p.refreshLifetime, now.after p.accessLifetime with
          | some _, some _ => .ok ()
          | _, _ => .overflow := by
      intro idToken
      refine .random fun _ => .after (fun t ht => .random fun _ => .after (fun t' ht' => ?_)
        fun ht' => ?_) fun ht => ?_
      · rw [ht, ht']
        exact ⟨rfl, rfl, rfl⟩
      · rw [ht, ht']
        exact ⟨rfl, rfl, rfl⟩
      · rw [ht]
        exact ⟨rfl, rfl, rfl⟩
    split_ifs
    · rw [bind_map_left]
      exact ensures_sign_ok hkey _ fun idToken => hfinish (some idToken)
    · exact hfinish none
  · rw [build_eq_error_iff.1 hbuild]
    rfl

/-- There is a key to sign with. -/
def KeyRing.Signs (ring : KeyRing) : Prop := ∃ key, ring.signingKey = .ok key

namespace Signing

theorem signs_of_not_due {ring : KeyRing} {now : Timestamp} (h : ¬ ring.due now) : ring.Signs := by
  unfold KeyRing.Signs KeyRing.signingKey
  rcases ha : ring.active with _ | key
  · exact absurd (by simp [KeyRing.due, ha]) h
  · exact ⟨key, rfl⟩

theorem signs_rotate (ring : KeyRing) (key : SigningKey) (now : Timestamp) :
    (ring.rotate key now).2.Signs := by
  unfold KeyRing.rotate
  split_ifs with h
  · exact ⟨key, rfl⟩
  · exact signs_of_not_due h

/-- If keys can be generated, there is one after a rotation. -/
theorem ensures_rotateIfDue (now : Timestamp) :
    (rotateIfDue now).Ensures G w fun o w' past => o ≠ .overflow ∧ w'.store = w.store ∧ past = [] ∧
      ((∀ reply, G reply → reply.keyFailure = none) → w'.ring.Signs) := by
  unfold rotateIfDue
  refine .ring ?_
  split_ifs with hdue
  · intro reply hreply
    dsimp only [World.perform]
    rcases hkey : reply.keyFailure with _ | d
    · intro _ _
      have hsigns := signs_rotate w.ring
        (.ofRandom w.ring.algorithm now (reply.bytes 16) reply.pair) now
      dsimp only [World.perform]
      rcases hrotate : w.ring.rotate _ now with ⟨_ | _, ring⟩ <;> rw [hrotate] at hsigns
      · exact ⟨nofun, rfl, rfl, fun _ => hsigns⟩
      · exact Ensures.count (f := fun _ => pure true) ⟨nofun, rfl, rfl, fun _ => hsigns⟩
    · exact ⟨nofun, rfl, rfl, fun h => nomatch hkey.symm.trans (h reply hreply)⟩
  · exact ⟨nofun, rfl, rfl, fun _ => signs_of_not_due hdue⟩

end Signing

/-- A grant begins with the store as it was, whether or not the key could be replaced. -/
theorem Operation.Ensures.afterRotation {grant : Operation α}
    {Q : Outcome α → World → List StoreEvent → Prop}
    (h : ∀ w₁ : World, w₁.store = w.store →
      ((∀ reply, G reply → reply.keyFailure = none) → w₁.ring.Signs) → grant.Ensures G w₁ Q) :
    (Endpoint.afterRotation grant).Ensures G w Q := by
  unfold Endpoint.afterRotation
  refine .clock fun reply _ => .attempt (Signing.ensures_rotateIfDue reply.clock) ?_ ?_ ?_
  · rintro _ w₁ _ ⟨-, hstore, rfl, hsigns⟩
    exact h w₁ hstore hsigns
  · rintro _ w₁ _ ⟨-, hstore, rfl, hsigns⟩
    exact h w₁ hstore hsigns
  · rintro _ _ ⟨ho, -⟩
    exact absurd rfl ho

theorem KeyRing.Signs.mint_verdict {ring ring' : KeyRing} (h : ring.Signs) (h' : ring'.Signs)
    (m : Mint) (p : TokenPolicy) (now : Instant) :
    m.verdict p now ring = m.verdict p now ring' := by
  obtain ⟨key, hkey⟩ := h
  obtain ⟨key', hkey'⟩ := h'
  unfold Mint.verdict
  rw [hkey, hkey']
  rcases (claimsRequest m p now).build "" with e | claims <;> rfl

/-- What follows a minting follows all that can be minted, if anything can. -/
theorem Operation.Ensures.mint {m : Mint} {p : TokenPolicy} {now : Instant}
    {f : TokenSet × TokenRecord → Operation α} {Q : Outcome α → World → List StoreEvent → Prop}
    (hok : ∀ t, m.verdict p now w.ring = .ok () → Outcome.Minted m (.ok t) → (f t).Ensures G w Q)
    (herror : ∀ e, m.verdict p now w.ring = .error e → Outcome.Minted m (.error e) →
      Q (.error e) w [])
    (hoverflow : m.verdict p now w.ring = .overflow → Q .overflow w []) :
    (Issuance.mint m p now >>= f).Ensures G w Q := by
  refine ((ensures_mint m p now).and (.of_quiet (quiet_mint m p now))).bind ?_
  rintro (t | e | _) _ _ ⟨⟨rfl, rfl, hkind⟩, hminted, -⟩
  · exact hok t hkind.symm hminted
  · exact herror e hkind.symm hminted
  · exact hoverflow hkind.symm

theorem Operation.Ensures.resolve {id : String} {f : Client → Operation α}
    {Q : Outcome α → World → List StoreEvent → Prop}
    (hfail : Fallible G → ∀ e, Q (.error (.ofStore e)) w [⟨.getClient id, .error e⟩])
    (hnone : w.store.client? id = none → Q (.error (.clientNotFound id)) w
      [⟨.getClient id, (.ok none : Except StoreError (Option Client))⟩])
    (hsome : ∀ c, w.store.client? id = some c → (f c).Ensures G w fun o w' past =>
      Q o w' (⟨.getClient id, (.ok (some c) : Except StoreError (Option Client))⟩ :: past)) :
    (resolveClient id >>= f).Ensures G w Q := by
  unfold resolveClient
  rw [bind_assoc]
  refine .ofStore rfl hfail ?_
  rcases hc : w.store.client? id with _ | c
  · exact hnone hc
  · exact hsome c hc

theorem quiet_bind {β : Type} {P : α → Prop} {K : β → Prop} {x : Operation α}
    {f : α → Operation β} (hx : x.Obeys .quiet (fun _ => Outcome.Yields P) ())
    (hf : ∀ a, P a → (f a).Obeys .quiet (fun _ => Outcome.Yields K) ()) :
    (x >>= f).Obeys .quiet (fun _ => Outcome.Yields K) () := by
  refine hx.bind ?_
  rintro ⟨⟩ (a | e | _) h
  · exact hf a h
  · trivial
  · trivial

theorem quiet_sign_yields {P : String → Prop} {payload : Json}
    (h : ∀ key random, P (Jws.sign key random payload)) :
    (Signing.sign payload).Obeys .quiet (fun _ => Outcome.Yields P) () := by
  unfold Signing.sign
  refine .ask nofun fun ring => .ofExcept (fun key _ => ?_) fun _ _ => trivial
  exact .ask nofun fun random => h key random

theorem quiet_sign_id (claims : Claims) (lifetime : Duration) (accessToken : String) :
    (Signing.signId claims lifetime (some accessToken)).Obeys .quiet (fun _ =>
      Outcome.Yields fun t => Jws.claims? .idToken t =
        some ⟨claims.expiringAfter lifetime.seconds, some (atHash accessToken)⟩) () := by
  unfold Signing.signId
  -- The hash as it is defined is too large a term to work with.
  generalize atHash = hash
  exact quiet_sign_yields fun _ _ => Jws.claims?_idToken ..

theorem bears_mint (m : Mint) (p : TokenPolicy) (now : Instant) :
    (mint m p now).Obeys .quiet (fun _ => Outcome.Yields fun t => m.Bears p now t.1 t.2) () := by
  unfold mint
  refine .ask nofun fun bytes => .ofExcept (fun claims hbuild => ?_) fun _ _ => trivial
  refine quiet_bind (P := fun t => Jws.claims? .access t = some (claims.expiringAfter _))
    (quiet_sign_yields fun _ _ => Jws.claims?_access ..) fun accessToken haccess => ?_
  extract_lets finish
  have hfinish : ∀ idToken : Option String,
      (if m.withIdToken then
        ∃ text, idToken = some text ∧ Jws.claims? .idToken text =
          some ⟨claims.expiringAfter p.idLifetime.seconds, some (atHash accessToken)⟩
      else idToken = none) →
      (finish idToken).Obeys .quiet
        (fun _ => Outcome.Yields fun t => m.Bears p now t.1 t.2) () := by
    intro idToken hid
    refine .ask nofun fun _ => .after (fun _ _ => .ask nofun fun _ => .after (fun _ _ => ?_) ?_) ?_
    · exact ⟨⟨_, claims, hbuild, haccess, hid⟩, rfl, rfl, rfl, rfl, rfl, rfl⟩
    · trivial
    · trivial
  split_ifs at hfinish ⊢ with hwith
  · rw [bind_map_left]
    refine quiet_bind (quiet_sign_id claims p.idLifetime accessToken) fun idToken hid => ?_
    exact hfinish (some idToken) ⟨idToken, rfl, hid⟩
  · exact hfinish none rfl

/-- What is minted tells of what was asked for. -/
theorem quiet_mint_bears (m : Mint) (p : TokenPolicy) (now : Instant) :
    (mint m p now).Obeys .quiet (fun _ => Outcome.Yields fun t =>
      Outcome.Minted m (.ok t) ∧ m.Bears p now t.1 t.2) () := by
  refine ((quiet_mint m p now).and (bears_mint m p now)).mono ?_
  rintro _ (t | e | _) ⟨hminted, hbears⟩
  · exact ⟨hminted, hbears⟩
  · trivial
  · trivial

/-- What follows a minting finds tokens and a record as they were asked for. -/
theorem Operation.Obeys.mint {Φ : Type} {allows : Φ → StoreCall → Prop}
    {next : Φ → (c : StoreCall) → Except StoreError c.Result → Φ} {φ : Φ}
    {Q : Φ → Outcome α → Prop} {m : Mint} {p : TokenPolicy} {now : Instant}
    {f : TokenSet × TokenRecord → Operation α}
    (hok : ∀ t r, Outcome.Minted m (.ok (t, r)) → m.Bears p now t r →
      (f (t, r)).Obeys (.ofStore allows next) Q φ)
    (herror : ∀ e, Outcome.Minted m (.error e) → Q φ (.error e)) (hoverflow : Q φ .overflow) :
    (Issuance.mint m p now >>= f).Obeys (.ofStore allows next) Q φ := by
  have hmint := (quiet_mint m p now).and (bears_mint m p now)
  refine Obeys.bind (P := fun ψ o => ψ = φ ∧ Outcome.Minted m o ∧
    o.Yields fun t => m.Bears p now t.1 t.2) (.of_quiet (fun _ ho => ⟨rfl, ho⟩) hmint) ?_
  rintro _ (⟨t, r⟩ | e | _) ⟨rfl, hminted, hbears⟩
  · exact hok t r hminted hbears
  · exact herror e hminted
  · exact hoverflow

end TokenAuthority

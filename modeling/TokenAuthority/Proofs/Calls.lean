import TokenAuthority.Proofs.Discipline

/-!
# The calls of the operations

Which calls of the store each operation makes, for the disciplines that leave most operations alone.
Signing and minting make none; what is minted is as it was asked for (`quiet_mint`), and no other
records are stored by issues and exchanges of refresh tokens (`calls_issue`, `calls_refresh`). A
rotation of the signing key that goes before a grant makes no call either and cannot stop the grant
(`obeys_afterRotation`).
-/

namespace TokenAuthority

open Operation Time

variable {α Φ : Type}

/-- The result, if there is one, is as it should be. -/
def Outcome.Yields (P : α → Prop) : Outcome α → Prop
  | .ok a => P a
  | _ => True

instance (P : α → Prop) [DecidablePred P] : DecidablePred (Outcome.Yields P)
  | .ok a => inferInstanceAs (Decidable (P a))
  | .error _ | .overflow => isTrue trivial

/-- How an operation that needs the active key may end. -/
def Outcome.Signed : Outcome String → Prop
  | .error e => e = .noActiveKey
  | _ => True

/-- How a minting may end. -/
def Outcome.Minted (m : Issuance.Mint) : Outcome (TokenSet × TokenRecord) → Prop
  | .ok (tokens, record) =>
    record.parent = m.parent ∧ record.live = true ∧ record.clientId = m.request.clientId
      ∧ record.userId = m.request.userId ∧ record.scope = m.request.scope
      ∧ record.refreshId = refreshIdOf tokens.refreshToken
  | .error e => e = .noActiveKey ∨ ∃ d, e = .invalidRequest d
  | .overflow => True

theorem quiet_sign (payload : Json) :
    (Signing.sign payload).Obeys .quiet (fun _ => Outcome.Signed) () := by
  unfold Signing.sign
  refine .ask nofun fun ring => .ofExcept (fun key _ => ?_) fun e he => ?_
  · exact .ask nofun fun _ => trivial
  · unfold KeyRing.signingKey at he
    split at he <;> cases he
    rfl

/-- What follows a signature follows any of them, and else nothing but the lack of a key. -/
theorem quiet_sign_bind {K : Outcome α → Prop} (herror : K (.error .noActiveKey))
    (hoverflow : K .overflow) (payload : Json) {f : String → Operation α}
    (h : ∀ t, (f t).Obeys .quiet (fun _ => K) ()) :
    (Signing.sign payload >>= f).Obeys .quiet (fun _ => K) () := by
  refine (quiet_sign payload).bind ?_
  rintro ⟨⟩ (t | e | _) ho
  · exact h t
  · exact ho ▸ herror
  · exact hoverflow

theorem build_error {r : ClaimsRequest} {jti : String} {e : TokenError}
    (h : r.build jti = .error e) : ∃ d, e = .invalidRequest d := by
  unfold ClaimsRequest.build at h
  split at h <;> cases h
  · exact ⟨_, rfl⟩
  · exact ⟨_, rfl⟩

theorem quiet_mint (m : Issuance.Mint) (p : TokenPolicy) (now : Instant) :
    (Issuance.mint m p now).Obeys .quiet (fun _ => Outcome.Minted m) () := by
  have herror : Outcome.Minted m (.error .noActiveKey) := .inl rfl
  unfold Issuance.mint
  refine .ask nofun fun _ => .ofExcept (fun claims _ => ?_) fun e he => .inr (build_error he)
  refine quiet_sign_bind herror trivial _ fun accessToken => ?_
  extract_lets finish
  have hfinish : ∀ idToken, (finish idToken).Obeys .quiet (fun _ => Outcome.Minted m) () := by
    intro idToken
    refine .ask nofun fun _ => .after (fun _ _ => .ask nofun fun _ => .after (fun _ _ => ?_) ?_) ?_
    · exact ⟨rfl, rfl, rfl, rfl, rfl, rfl⟩
    · trivial
    · trivial
  split_ifs
  · rw [bind_map_left]
    exact quiet_sign_bind herror trivial _ fun idToken => hfinish (some idToken)
  · exact hfinish none

theorem quiet_generateKey (algorithm : Algorithm) (now : Timestamp) :
    (Signing.generateKey algorithm now).Obeys .quiet (fun _ o => o ≠ .overflow) () := by
  unfold Signing.generateKey
  refine .ask nofun ?_
  rintro (e | key)
  · exact nofun
  · exact nofun

theorem quiet_rotateIfDue (now : Timestamp) :
    (Signing.rotateIfDue now).Obeys .quiet (fun _ o => o ≠ .overflow) () := by
  unfold Signing.rotateIfDue
  refine .ask nofun fun ring => ?_
  split_ifs
  · refine (quiet_generateKey _ now).bind ?_
    rintro ⟨⟩ (key | e | _) ho
    · refine .ask nofun ?_
      rintro (_ | _)
      · exact nofun
      · exact .ask nofun fun _ => nofun
    · exact nofun
    · exact absurd rfl ho
  · exact nofun

section Rules

variable {allows : Φ → StoreCall → Prop}
  {next : Φ → (c : StoreCall) → Except StoreError c.Result → Φ} {φ : Φ}

/-- A rotation of the signing key makes no difference to what comes after it. -/
theorem obeys_afterRotation {Q : Φ → Outcome α → Prop} {grant : Operation α}
    (h : grant.Obeys (.ofStore allows next) Q φ) :
    (Endpoint.afterRotation grant).Obeys (.ofStore allows next) Q φ := by
  unfold Endpoint.afterRotation
  refine .ask nofun fun now => .attempt (P := fun ψ o => ψ = φ ∧ o ≠ .overflow) ?_ ?_ ?_ ?_
  · exact .of_quiet (fun o ho => ⟨rfl, ho⟩) (quiet_rotateIfDue now)
  · rintro _ _ ⟨rfl, -⟩
    exact h
  · rintro _ _ ⟨rfl, -⟩
    exact h
  · rintro _ ⟨-, ho⟩
    exact absurd rfl ho

/-- The body of an answer tells how a token request has ended. -/
theorem obeys_token {D : Discipline Φ} {Q : Φ → Outcome TokenResponse → Prop} {e : Endpoint}
    {r : TokenRequest} (h : (e.exchange r).Obeys D Q φ) :
    (e.token r).Obeys D (fun φ o => ∃ o', Q φ o' ∧ (Request.token e r).Reports o o') φ := by
  refine .attempt h (fun φ t h => ⟨_, h, ?_⟩) (fun φ e h => ⟨_, h, ?_⟩) fun φ h => ⟨_, h, ?_⟩
  · exact ⟨⟨fun _ => ⟨t, rfl⟩, fun _ => rfl⟩, nofun, nofun⟩
  · refine ⟨⟨nofun, nofun⟩, ?_, nofun⟩
    rintro _ ⟨rfl⟩
    rfl
  · exact ⟨⟨nofun, nofun⟩, nofun, nofun⟩

/-- The records that are minted are of a kind. -/
def Mints (P : TokenRecord → Prop) : Prop :=
  ∀ m p now, (Issuance.mint m p now).Obeys .quiet (fun _ => Outcome.Yields fun t => P t.2) ()

theorem mints_true : Mints fun _ => True := by
  refine fun m p now => (quiet_mint m p now).mono ?_
  rintro _ (t | e | _) - <;> trivial

/-- What follows a minting finds a record as it was asked for and of a kind. -/
theorem Mints.bind {P : TokenRecord → Prop} (hP : Mints P) {Q : Φ → Outcome α → Prop}
    {m : Issuance.Mint} {p : TokenPolicy} {now : Instant} {f : TokenSet × TokenRecord → Operation α}
    (hok : ∀ t, Outcome.Minted m (.ok t) → P t.2 → (f t).Obeys (.ofStore allows next) Q φ)
    (herror : ∀ e, Outcome.Minted m (.error e) → Q φ (.error e)) (hoverflow : Q φ .overflow) :
    (Issuance.mint m p now >>= f).Obeys (.ofStore allows next) Q φ := by
  refine Obeys.bind (P := fun ψ o => ψ = φ ∧ o.Minted m ∧ o.Yields fun t => P t.2)
    (.of_quiet (fun o ho => ⟨rfl, ho⟩) ((quiet_mint m p now).and (hP m p now))) ?_
  rintro _ (t | e | _) ⟨rfl, ho, ht⟩
  · exact hok t ho ht
  · exact herror e ho
  · exact hoverflow

theorem obeys_mint {Q : Φ → Outcome α → Prop} {m : Issuance.Mint} {p : TokenPolicy} {now : Instant}
    {f : TokenSet × TokenRecord → Operation α}
    (hok : ∀ t, Outcome.Minted m (.ok t) → (f t).Obeys (.ofStore allows next) Q φ)
    (herror : ∀ e, Outcome.Minted m (.error e) → Q φ (.error e)) (hoverflow : Q φ .overflow) :
    (Issuance.mint m p now >>= f).Obeys (.ofStore allows next) Q φ :=
  mints_true.bind (fun t ht _ => hok t ht) herror hoverflow

end Rules

namespace StoreCall

/-- The calls of an issue of tokens. -/
def OfIssue : StoreCall → Prop
  | getClient _ => True
  | createRecord r => r.parent = none ∧ r.live = true
  | _ => False

def OfCodeIssue : StoreCall → Prop
  | getClient _ => True
  | createCode c => c.used = false
  | _ => False

def OfRedemption : StoreCall → Prop
  | getCode _ | markCodeUsed _ => True
  | _ => False

/-- The calls of an exchange of a refresh token. -/
def OfRefresh : StoreCall → Prop
  | getClient _ | getRecord _ | markRotated _ | revokeRecord _ | revokeChain _ => True
  | createRecord r => ∃ x, r.parent = some x
  | _ => False

/-- The records that a call stores are of a kind. -/
def Stores (P : TokenRecord → Prop) : StoreCall → Prop
  | createRecord r => P r
  | _ => True

end StoreCall

/-- A chain is burned with one call of the store, and nothing comes of it but an error. -/
theorem only_burn {P : StoreCall → Prop} {K : Outcome TokenSet → Prop} (record : TokenRecord)
    (hcall : P (.revokeChain record.refreshId)) (herror : ∀ e, K (.error e)) :
    (Rotation.burn record).Obeys (.only P) (fun _ => K) () := by
  unfold Rotation.burn
  refine .tryStore hcall ?_
  rintro (e | n) _
  · exact herror _
  · exact .ask nofun fun _ => .ask nofun fun _ => herror _

section Mints

variable {P : TokenRecord → Prop} (hP : Mints P)

include hP

theorem calls_issue (r : IssueRequest) (p : TokenPolicy) (now : Instant) :
    (Issuance.issue r p now).Obeys (.only fun c => c.OfIssue ∧ c.Stores P)
      (fun _ _ => True) () := by
  unfold Issuance.issue Issuance.resolveClient
  rw [bind_assoc]
  refine .ofStore ⟨trivial, trivial⟩ (fun client _ => ?_) fun _ => trivial
  rcases client with _ | client
  · trivial
  refine hP.bind (fun t ht hrecord => ?_) (fun _ _ => trivial) trivial
  refine .ofStore ⟨⟨ht.1, ht.2.1⟩, hrecord⟩ (fun _ _ => ?_) fun _ => trivial
  exact .ask nofun fun _ => .ask nofun fun _ => .ask nofun fun _ => .ask nofun fun _ => trivial

theorem calls_rotate (r : Rotation.Request) (p : TokenPolicy) (now : Instant) :
    (Rotation.rotate r p now).Obeys (.only fun c => c.OfRefresh ∧ c.Stores P)
      (fun _ _ => True) () := by
  unfold Rotation.rotate
  refine .ofStore ⟨trivial, trivial⟩ (fun record _ => ?_) fun _ => trivial
  rcases record with _ | record
  · trivial
  dsimp only
  split_ifs
  · trivial
  · exact only_burn record ⟨trivial, trivial⟩ fun _ => trivial
  · trivial
  · trivial
  unfold Rotation.exchange Issuance.resolveClient
  rw [bind_assoc]
  refine .ofStore ⟨trivial, trivial⟩ (fun client _ => ?_) fun _ => trivial
  rcases client with _ | client
  · trivial
  refine hP.bind (fun t ht hrecord => ?_) (fun _ _ => trivial) trivial
  unfold Rotation.succeed
  refine .ofStore ⟨⟨_, ht.1⟩, hrecord⟩ (fun _ _ => .tryStore ⟨trivial, trivial⟩ ?_)
    fun _ => trivial
  rintro (e | _ | _) _
  · exact .tryStore ⟨trivial, trivial⟩ fun _ _ => trivial
  · exact only_burn record ⟨trivial, trivial⟩ fun _ => trivial
  · trivial

theorem calls_refresh (r : Rotation.Request) (p : TokenPolicy) (now : Instant) :
    (Rotation.refresh r p now).Obeys (.only fun c => c.OfRefresh ∧ c.Stores P)
      (fun _ _ => True) () := by
  unfold Rotation.refresh
  refine .attempt (calls_rotate hP r p now) ?_ ?_ fun _ _ => trivial
  · exact fun _ t _ => .ask nofun fun _ => trivial
  · exact fun _ e _ => .ask nofun fun _ => trivial

end Mints

theorem only_issue (r : IssueRequest) (p : TokenPolicy) (now : Instant) :
    (Issuance.issue r p now).Obeys (.only StoreCall.OfIssue) (fun _ _ => True) () :=
  (calls_issue mints_true r p now).only_mono fun _ h => h.1

theorem only_issueCode (p : CodePolicy) (r : CodeRequest) (now : Instant) :
    (Codes.issue p r now).Obeys (.only StoreCall.OfCodeIssue) (fun _ _ => True) () := by
  unfold Codes.issue
  refine .ofStore trivial (fun client _ => ?_) fun _ => trivial
  rcases client with _ | client
  · trivial
  refine .ofExcept (fun _ _ => .ask nofun fun _ => .after (fun _ _ => ?_) trivial)
    fun _ _ => trivial
  refine .ofStore rfl (fun _ _ => ?_) fun _ => trivial
  exact .ask nofun fun _ => trivial

theorem only_check (p : CodePolicy) (r : Codes.Redemption) (now : Instant) :
    (Codes.check p r now).Obeys (.only StoreCall.OfRedemption) (fun _ _ => True) () := by
  unfold Codes.check
  refine .ofStore trivial (fun code _ => ?_) fun _ => trivial
  rcases code with _ | code
  · trivial
  exact .ofExcept (fun _ _ => trivial) fun _ _ => trivial

theorem only_redeem (p : CodePolicy) (r : Codes.Redemption) (now : Instant) :
    (Codes.redeem p r now).Obeys (.only StoreCall.OfRedemption) (fun _ _ => True) () := by
  unfold Codes.redeem
  refine .attempt (only_check p r now) ?_ ?_ fun _ _ => trivial
  · intro _ stored _
    refine .ofStore trivial ?_ fun _ => trivial
    rintro (_ | _) _
    · exact .ask nofun fun _ => trivial
    · exact .ask nofun fun _ => trivial
  · intro _ e _
    exact .ask nofun fun _ => trivial

theorem only_refresh (r : Rotation.Request) (p : TokenPolicy) (now : Instant) :
    (Rotation.refresh r p now).Obeys (.only StoreCall.OfRefresh) (fun _ _ => True) () :=
  (calls_refresh mints_true r p now).only_mono fun _ h => h.1

theorem only_revoke (refreshToken : String) :
    (Endpoint.revoke refreshToken).Obeys (.only fun c => ∃ x, c = .revokeByRefreshId x)
      (fun _ _ => True) () := by
  unfold Endpoint.revoke
  split_ifs
  · trivial
  · refine .ofStore ⟨_, rfl⟩ ?_ fun _ => trivial
    rintro (_ | _) _
    · trivial
    · exact .ask nofun fun _ => trivial

theorem quiet_verify (type : Jws.ClaimType) (token : String) :
    (Signing.verify type token).Obeys .quiet (fun _ _ => True) () := by
  unfold Signing.verify
  refine .ask nofun fun _ => .ask nofun fun _ => ?_
  rw [obeys_ofExcept]
  trivial

theorem only_userinfo (accessToken : String) :
    (Endpoint.userinfo accessToken).Obeys (.only fun c => ∃ id, c = .getUser id)
      (fun _ _ => True) () := by
  unfold Endpoint.userinfo
  refine Obeys.bind (P := fun _ _ => True) (.of_quiet (fun _ _ => trivial) (quiet_verify _ _)) ?_
  rintro _ (claims | e | _) -
  · refine .ofStore ⟨_, rfl⟩ (fun user _ => ?_) fun _ => trivial
    rcases user with _ | user
    · trivial
    · trivial
  · trivial
  · trivial

theorem quiet_installKey (now : Timestamp) :
    (Signing.installKey now).Obeys .quiet (fun _ _ => True) () := by
  unfold Signing.installKey
  refine .ask nofun fun ring => ?_
  rcases ring.active with _ | a
  · refine (quiet_generateKey _ now).bind ?_
    rintro ⟨⟩ (key | e | _) -
    · exact .ask nofun fun _ => trivial
    · trivial
    · trivial
  · trivial

/-- Whether a request leaves the store alone. -/
def Request.isQuiet : Request → Bool
  | publicKeys | signAccess _ _ | signId _ _ _ | verifyAccess _ | verifyId _ | installKey _
  | rotateIfDue _ => true
  | _ => false

theorem quiet_request {r : Request} (h : r.isQuiet) :
    r.operation.Obeys .quiet (fun _ _ => True) () := by
  cases r with
  | publicKeys => exact .ask nofun fun _ => trivial
  | signAccess => exact (quiet_sign _).mono fun _ _ _ => trivial
  | signId => exact (quiet_sign _).mono fun _ _ _ => trivial
  | verifyAccess t => exact quiet_verify .access t
  | verifyId t => exact quiet_verify .idToken t
  | installKey => exact quiet_installKey _
  | rotateIfDue => exact (quiet_rotateIfDue _).mono fun _ _ _ => trivial
  | _ => cases h

end TokenAuthority

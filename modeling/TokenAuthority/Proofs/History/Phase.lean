import TokenAuthority.Proofs.Code.Phase
import TokenAuthority.Proofs.Token.Minting

/-!
# What a request has done

Here the phase of a request is all that it has asked of the store, with the answers (`Progress`).
What it asks next rests on these answers: a code is created for a client that was found and may ask
for it, and a record is stored to honour a code that was found or to continue a record that was
found (`Permits`). The answer to a token request tells of the record that was stored for it
(`Fits`).
-/

namespace TokenAuthority

open Operation Time

namespace StoreEvent

def foundClient (c : Client) : StoreEvent :=
  ⟨.getClient c.clientId, (.ok (some c) : Except StoreError (Option Client))⟩

def foundCode (c : AuthorizationCode) : StoreEvent :=
  ⟨.getCode c.code, (.ok (some c) : Except StoreError (Option AuthorizationCode))⟩

def foundRecord (r : TokenRecord) : StoreEvent :=
  ⟨.getRecord r.refreshId, (.ok (some r) : Except StoreError (Option TokenRecord))⟩

def created (c : AuthorizationCode) : StoreEvent :=
  ⟨.createCode c, (.ok () : Except StoreError Unit)⟩

def marked (v : String) : StoreEvent := ⟨.markCodeUsed v, (.ok true : Except StoreError Bool)⟩

def stored (r : TokenRecord) : StoreEvent := ⟨.createRecord r, (.ok () : Except StoreError Unit)⟩

end StoreEvent

/-- A code is what was asked for. -/
structure Codes.Issued (q : CodeRequest) (p : CodePolicy) (now : Instant) (client : Client)
    (c : AuthorizationCode) : Prop where
  accepted : accept p client q = .ok (⟨c.scopes⟩, c.method)
  expiresAt : now.after p.lifetime = some c.expiresAt
  clientId : c.clientId = q.clientId
  userId : c.userId = q.userId
  redirectUri : c.redirectUri = q.redirectUri
  challenge : c.challenge = q.challenge
  nonce : c.nonce = filled? q.nonce
  used : c.used = false

/-- A record has come from the refresh token of another one. -/
structure TokenRecord.Continues (r r' : TokenRecord) : Prop where
  parent : r.parent = some r'.refreshId
  clientId : r.clientId = r'.clientId
  userId : r.userId = r'.userId
  scope : r.scope = r'.scope

/-- Claims are made for a record. -/
structure Claims.Tells (c : Claims) (issuer nonce : String) (r : TokenRecord) : Prop where
  iss : c.iss = issuer
  sub : c.sub = r.subject
  aud : c.aud = [r.clientId]
  clientId : c.clientId = r.clientId
  scope : c.scope = r.scope
  nonce : c.nonce = nonce

/-- The answer to a token request tells of a record. -/
structure TokenResponse.Tells (t : TokenResponse) (issuer nonce : String) (bound : Bool)
    (r : TokenRecord) : Prop where
  refreshId : r.refreshId = refreshIdOf t.refreshToken
  scope : t.scope = r.scope
  access : ∃ c, Jws.claims? .access t.accessToken = some c ∧ c.Tells issuer nonce r
  idToken : if bound then
      ∃ text c, t.idToken = some text ∧
        Jws.claims? .idToken text = some ⟨c, some (atHash t.accessToken)⟩ ∧ c.Tells issuer nonce r
    else t.idToken = none

namespace History

open StoreEvent

/-- Where a record comes from. -/
inductive Origin (q : Request) (past : List StoreEvent) (r : TokenRecord) : Prop
  | issue {i : IssueRequest} {p : TokenPolicy} {now : Instant} (hq : q = .issue i p now)
    (hparent : r.parent = none)
  | code {c : AuthorizationCode} (hfound : foundCode c ∈ past) (hmarked : marked c.code ∈ past)
    (hgrants : c.Grants r)
  | refresh {parent : TokenRecord} (hfound : foundRecord parent ∈ past)
    (hcontinues : r.Continues parent)

def Permits (q : Request) (past : List StoreEvent) : StoreCall → Prop
  | .getCode v => q.code? = some v
  | .createCode c => ∃ r p now client, q = .issueCode r p now ∧ foundClient client ∈ past ∧
      client.clientId = r.clientId ∧ Codes.Issued r p now client c
  | .createRecord r => Origin q past r
  | _ => True

/-- A request with its calls of the store, first call first. -/
structure Progress where
  request : Request
  past : List StoreEvent

namespace Progress

def next (φ : Progress) (c : StoreCall) (a : Except StoreError c.Result) : Progress :=
  { φ with past := φ.past ++ [⟨c, a⟩] }

/-- The same request, later. -/
structure Later (φ ψ : Progress) : Prop where
  request : ψ.request = φ.request
  past : φ.past ⊆ ψ.past

/-- The discipline of requests that ask for what rests on their calls before. -/
def asking (A : Request → List StoreEvent → StoreCall → Prop) : Discipline Progress :=
  .ofStore (fun φ => A φ.request φ.past) next

end Progress

def discipline : Discipline Progress :=
  .ofStore (fun φ => Permits φ.request φ.past) Progress.next

theorem Origin.mono {q : Request} {past later : List StoreEvent} {r : TokenRecord}
    (h : past ⊆ later) : Origin q past r → Origin q later r
  | .issue hq hparent => .issue hq hparent
  | .code hfound hmarked hgrants => .code (h hfound) (h hmarked) hgrants
  | .refresh hfound hcontinues => .refresh (h hfound) hcontinues

theorem Permits.mono {q : Request} {past later : List StoreEvent} (h : past ⊆ later) :
    ∀ {c : StoreCall}, Permits q past c → Permits q later c
  | .createCode _, ⟨r, p, now, client, hq, hclient, hc⟩ => ⟨r, p, now, client, hq, h hclient, hc⟩
  | .createRecord _, hr => Origin.mono h hr
  | .getCode _, hv => hv
  | .getClient _, _ | .getUser _, _ | .getUserByEmail _, _ | .markCodeUsed _, _ | .getRecord _, _
  | .markRotated _, _ | .revokeRecord _, _ | .revokeByRefreshId _, _ | .revokeChain _, _ => trivial

theorem Progress.Later.refl (φ : Progress) : φ.Later φ := ⟨rfl, List.Subset.refl _⟩

theorem Progress.Later.trans {φ ψ χ : Progress} (h : φ.Later ψ) (h' : ψ.Later χ) : φ.Later χ :=
  ⟨h'.request.trans h.request, List.Subset.trans h.past h'.past⟩

theorem Progress.later_next (φ : Progress) (c : StoreCall) (a : Except StoreError c.Result) :
    φ.Later (φ.next c a) := ⟨rfl, List.subset_append_left _ _⟩

section Minting

variable {m : Issuance.Mint} {p : TokenPolicy} {now : Instant} {t : TokenSet} {r : TokenRecord}

theorem build_ok {r : ClaimsRequest} {jti : String} {c : Claims} (h : r.build jti = .ok c) :
    c.iss = r.issuer ∧ r.subject = some c.sub ∧ c.aud = r.audience ∧ r.clientId = some c.clientId ∧
      c.scope = r.scope ∧ c.nonce = r.nonce.getD "" := by
  unfold ClaimsRequest.build at h
  split at h
  · cases h
  · cases h
  · rename_i hsub hclient
    cases h
    exact ⟨rfl, (Option.filter_eq_some_iff.1 hsub).1, rfl, (Option.filter_eq_some_iff.1 hclient).1,
      rfl, rfl⟩

/-- The tokens of a client tell of the record that was made with them. -/
theorem tells_of_mint (hminted : Outcome.Minted m (.ok (t, r))) (hbears : m.Bears p now t r)
    (haudience : m.request.audience = [m.request.clientId]) :
    (TokenResponse.ofTokenSet t).Tells p.issuer (m.request.nonce.getD "") m.withIdToken r := by
  obtain ⟨-, -, hclient, huser, hscope, hrefresh⟩ := hminted
  obtain ⟨jti, c, hbuild, haccess, hid⟩ := hbears.claims
  obtain ⟨hiss, hsub, haud, hclient', hscope', hnonce⟩ := build_ok hbuild
  have htells : ∀ lifetime,
      (c.expiringAfter lifetime).Tells p.issuer (m.request.nonce.getD "") r := by
    refine fun lifetime => ⟨hiss, ?_, ?_, ?_, hscope'.trans hscope.symm, hnonce⟩
    · rw [TokenRecord.subject, huser, hclient]
      exact (Option.some.inj hsub).symm
    · rw [hclient]
      refine haud.trans ?_
      simp [Issuance.claimsRequest, haudience]
    · rw [hclient]
      exact (Option.some.inj hclient').symm
  refine ⟨hrefresh, hbears.scope.trans hscope.symm, ⟨_, haccess, htells _⟩, ?_⟩
  split_ifs at hid ⊢ with hwith
  · obtain ⟨text, htext, hclaims⟩ := hid
    exact ⟨text, _, htext, hclaims, htells _⟩
  · exact hid

end Minting

section Rules

variable {α β : Type} {φ : Progress}

/-- A request goes on from a phase, and its result, if there is one, fits what it has done. -/
def Goes (φ : Progress) (P : List StoreEvent → α → Prop) (ψ : Progress) (o : Outcome α) : Prop :=
  φ.Later ψ ∧ o.Yields (P ψ.past)

theorem obeys_ok {P : List StoreEvent → α → Prop} {a : α} (h : P φ.past a) :
    (pure a : Operation α).Obeys discipline (Goes φ P) φ := ⟨.refl φ, h⟩

theorem obeys_error (P : List StoreEvent → α → Prop) (e : TokenError) :
    (fail e : Operation α).Obeys discipline (Goes φ P) φ := ⟨.refl φ, trivial⟩

theorem obeys_overflow (P : List StoreEvent → α → Prop) :
    (overflow : Operation α).Obeys discipline (Goes φ P) φ := ⟨.refl φ, trivial⟩

theorem obeys_later {P : List StoreEvent → α → Prop} {x : Operation α} {ψ : Progress}
    (hψ : φ.Later ψ) (h : x.Obeys discipline (Goes ψ P) ψ) : x.Obeys discipline (Goes φ P) ψ :=
  h.mono fun _ _ h => ⟨hψ.trans h.1, h.2⟩

theorem obeys_bind {P : List StoreEvent → α → Prop} {P' : List StoreEvent → β → Prop}
    {x : Operation α} {f : α → Operation β} (hx : x.Obeys discipline (Goes φ P) φ)
    (h : ∀ a ψ, φ.Later ψ → P ψ.past a → (f a).Obeys discipline (Goes ψ P') ψ) :
    (x >>= f).Obeys discipline (Goes φ P') φ := by
  refine hx.bind ?_
  rintro ψ (a | e | _) ⟨hψ, ha⟩
  · exact obeys_later hψ (h a ψ hψ ha)
  · exact ⟨hψ, trivial⟩
  · exact ⟨hψ, trivial⟩

theorem obeys_tryStore {c : StoreCall} {P : List StoreEvent → β → Prop}
    {f : Except StoreError c.Result → Operation β} (hc : Permits φ.request φ.past c)
    (h : ∀ a, (f a).Obeys discipline (Goes (φ.next c a) P) (φ.next c a)) :
    (tryStore c >>= f).Obeys discipline (Goes φ P) φ :=
  .tryStore hc fun a _ => obeys_later (φ.later_next c a) (h a)

theorem obeys_ofStore {c : StoreCall} {P : List StoreEvent → β → Prop} {f : c.Result → Operation β}
    (hc : Permits φ.request φ.past c) (h : ∀ r, c.Credible (.ok r) →
      (f r).Obeys discipline (Goes (φ.next c (.ok r)) P) (φ.next c (.ok r))) :
    (ofStore c >>= f).Obeys discipline (Goes φ P) φ :=
  .ofStore hc (fun r hr => obeys_later (φ.later_next c _) (h r hr))
    fun _ => ⟨φ.later_next c _, trivial⟩

theorem mem_next (φ : Progress) (c : StoreCall) (a : Except StoreError c.Result) :
    (⟨c, a⟩ : StoreEvent) ∈ (φ.next c a).past :=
  List.mem_append_right _ (List.mem_singleton.2 rfl)

/-- What calls of some kind are allowed to anyone, those that make only these may make, and they
have made only these besides when they end. -/
theorem obeys_of_only {A : Request → List StoreEvent → StoreCall → Prop} {q : Request}
    {P : StoreCall → Prop} {K : Outcome α → Prop} (hP : ∀ past c, P c → A q past c) :
    ∀ (x : Operation α) (past : List StoreEvent), x.Obeys (.only P) (fun _ => K) () →
      x.Obeys (Progress.asking A) (fun ψ o => Progress.Later ⟨q, past⟩ ψ ∧
        (∀ e ∈ ψ.past, e ∈ past ∨ P e.1) ∧ K o) ⟨q, past⟩
  | done _, _, hx => ⟨.refl _, fun _ => .inl, hx⟩
  | call c next, past, hx => by
    have hnext := fun later a ha => obeys_of_only hP (next a) later (hx.2 a ha)
    cases c with
    | store c =>
      refine ⟨hP past c hx.1, fun a ha => (hnext _ a ha).mono ?_⟩
      rintro ψ o ⟨hlater, hmade, ho⟩
      refine ⟨(Progress.later_next ⟨q, past⟩ c a).trans hlater, fun e he => ?_, ho⟩
      rcases hmade e he with he | he
      · refine (List.mem_append.1 he).imp_right fun he => ?_
        rw [List.mem_singleton.1 he]
        exact hx.1
      · exact .inr he
    | _ => exact ⟨trivial, hnext past⟩

end Rules

section Minting

variable {α : Type} {φ : Progress} {m : Issuance.Mint} {p : TokenPolicy} {now : Instant}

theorem obeys_mint {P : List StoreEvent → α → Prop} {f : TokenSet × TokenRecord → Operation α}
    (h : ∀ t r, Outcome.Minted m (.ok (t, r)) → m.Bears p now t r →
      (f (t, r)).Obeys discipline (Goes φ P) φ) :
    (Issuance.mint m p now >>= f).Obeys discipline (Goes φ P) φ :=
  .mint h (fun e _ => obeys_error P e) (obeys_overflow P)

theorem obeys_resolve {id : String} {P : List StoreEvent → α → Prop} {f : Client → Operation α}
    (h : ∀ c ψ, φ.Later ψ → c.clientId = id → (f c).Obeys discipline (Goes ψ P) ψ) :
    (Issuance.resolveClient id >>= f).Obeys discipline (Goes φ P) φ := by
  unfold Issuance.resolveClient
  rw [bind_assoc]
  refine obeys_ofStore trivial fun client hc => ?_
  rcases client with _ | c
  · exact obeys_error P _
  · exact h c _ (φ.later_next _ _) (hc c rfl)

/-- Tokens were minted and their record stored. -/
def Kept (m : Issuance.Mint) (p : TokenPolicy) (now : Instant) (past : List StoreEvent)
    (t : TokenSet) : Prop :=
  ∃ r, stored r ∈ past ∧ Outcome.Minted m (.ok (t, r)) ∧ m.Bears p now t r

theorem Kept.mono {past later : List StoreEvent} {t : TokenSet} (h : past ⊆ later) :
    Kept m p now past t → Kept m p now later t
  | ⟨r, hr, hminted, hbears⟩ => ⟨r, h hr, hminted, hbears⟩

end Minting

section Operations

variable {φ : Progress}

theorem obeys_check (p : CodePolicy) (r : Codes.Redemption) (now : Instant)
    (hcode : φ.request.code? = some r.code) :
    (Codes.check p r now).Obeys discipline (Goes φ fun past c => foundCode c ∈ past ∧
      c.code = r.code ∧ Codes.acceptRedemption p c r now = .ok ()) φ := by
  unfold Codes.check
  refine obeys_ofStore hcode fun c hc => ?_
  rcases c with _ | c
  · exact obeys_error _ _
  refine .ofExcept (fun _ haccept => obeys_ok ⟨?_, hc c rfl, haccept⟩) fun e _ => obeys_error _ e
  rw [foundCode, hc c rfl]
  exact mem_next φ _ _

theorem client_of_accepted {p : CodePolicy} {c : AuthorizationCode} {r : Codes.Redemption}
    {now : Instant} (h : Codes.acceptRedemption p c r now = .ok ()) : c.clientId = r.clientId := by
  unfold Codes.acceptRedemption AuthorizationCode.redeemable at h
  split_ifs at h with hredeem
  · simp only [Bool.and_eq_true, beq_iff_eq] at hredeem
    exact hredeem.1.2

theorem obeys_redeem (p : CodePolicy) (r : Codes.Redemption) (now : Instant)
    (hcode : φ.request.code? = some r.code) :
    (Codes.redeem p r now).Obeys discipline (Goes φ fun past a => ∃ c, foundCode c ∈ past ∧
      marked c.code ∈ past ∧ c.clientId = r.clientId ∧ a = { c with used := true }) φ := by
  unfold Codes.redeem
  refine .attempt (obeys_check p r now hcode) ?_ ?_ fun _ h => ⟨h.1, trivial⟩
  · rintro ψ c ⟨hψ, hfound, hc, haccept⟩
    refine obeys_later hψ (obeys_ofStore trivial ?_)
    rintro (_ | _) _
    · exact .ask nofun fun _ => obeys_error _ _
    · refine .ask nofun fun _ => obeys_ok ⟨c, ?_, ?_, client_of_accepted haccept, rfl⟩
      · exact (ψ.later_next _ _).past hfound
      · rw [hc]
        exact mem_next ψ _ _
  · exact fun ψ e h => .ask nofun fun _ => ⟨h.1, trivial⟩

theorem obeys_issue (r : IssueRequest) (p : TokenPolicy) (now : Instant)
    (horigin : ∀ t rec, Outcome.Minted ⟨r, none, true⟩ (.ok (t, rec)) →
      Origin φ.request φ.past rec) :
    (Issuance.issue r p now).Obeys discipline (Goes φ (Kept ⟨r, none, true⟩ p now)) φ := by
  unfold Issuance.issue
  refine obeys_resolve fun client ψ hψ hc => obeys_mint fun t rec hminted hbears => ?_
  rw [hc] at hminted hbears
  refine obeys_ofStore ?_ fun _ _ => ?_
  · rw [hψ.request]
    exact (horigin t rec hminted).mono hψ.past
  refine .ask nofun fun _ => .ask nofun fun _ => .ask nofun fun _ => .ask nofun fun _ => ?_
  exact obeys_ok ⟨rec, mem_next _ _ _, hminted, hbears⟩

theorem obeys_burn (P : List StoreEvent → TokenSet → Prop) (r : TokenRecord) :
    (Rotation.burn r).Obeys discipline (Goes φ P) φ := by
  unfold Rotation.burn
  refine obeys_tryStore trivial ?_
  rintro (e | n)
  · exact obeys_error P _
  · exact .ask nofun fun _ => .ask nofun fun _ => obeys_error P _

/-- The tokens that continue a record were minted and their record stored. -/
def Continued (q : Rotation.Request) (p : TokenPolicy) (now : Instant) (past : List StoreEvent)
    (t : TokenSet) : Prop :=
  ∃ r, foundRecord r ∈ past ∧ (∀ c, q.client = some c → c = r.clientId) ∧
    Kept ⟨⟨r.userId, r.clientId, r.scope, q.audience, none⟩, some r.refreshId, false⟩ p now past t

theorem obeys_exchange {q : Rotation.Request} {r : TokenRecord} (hfound : foundRecord r ∈ φ.past)
    (hclient : ∀ c, q.client = some c → c = r.clientId) (p : TokenPolicy) (now : Instant) :
    (Rotation.exchange r q.audience p now).Obeys discipline (Goes φ (Continued q p now)) φ := by
  unfold Rotation.exchange
  refine obeys_resolve fun client ψ hψ hc => obeys_mint fun t rec hminted hbears => ?_
  rw [hc] at hminted hbears
  have ⟨hparent, _, hclientId, huser, hscope, _⟩ := hminted
  unfold Rotation.succeed
  refine obeys_ofStore (.refresh (hψ.past hfound) ⟨hparent, hclientId, huser, hscope⟩)
    fun _ _ => obeys_tryStore trivial ?_
  rintro (e | _ | _)
  · exact obeys_tryStore trivial fun _ => obeys_error _ _
  · exact obeys_burn _ r
  · refine obeys_ok ⟨r, ?_, hclient, rec, ?_, hminted, hbears⟩
    · exact (((ψ.later_next _ _).trans (Progress.later_next _ _ _)).past) (hψ.past hfound)
    · exact (Progress.later_next _ _ _).past (mem_next ψ _ _)

theorem obeys_rotate (q : Rotation.Request) (p : TokenPolicy) (now : Instant) :
    (Rotation.rotate q p now).Obeys discipline (Goes φ (Continued q p now)) φ := by
  unfold Rotation.rotate
  refine obeys_ofStore trivial fun r hr => ?_
  rcases r with _ | r
  · exact obeys_error _ _
  dsimp only
  split_ifs with hrev hrot hclient hexpired
  · exact obeys_error _ _
  · exact obeys_burn _ r
  · exact obeys_error _ _
  · exact obeys_error _ _
  refine obeys_exchange ?_ (fun c hc => by simpa [hc] using hclient) p now
  rw [foundRecord, hr r rfl]
  exact mem_next φ _ _

theorem obeys_refresh (q : Rotation.Request) (p : TokenPolicy) (now : Instant) :
    (Rotation.refresh q p now).Obeys discipline (Goes φ (Continued q p now)) φ := by
  unfold Rotation.refresh
  refine .attempt (obeys_rotate q p now) ?_ ?_ fun _ h => h
  · exact fun ψ t h => .ask nofun fun _ => h
  · exact fun ψ e h => .ask nofun fun _ => h

end Operations

section Grants

variable {φ : Progress}

/-- What a token request was granted: its answer tells of a record that was stored for a code, or
that continues another one. -/
inductive Granted (e : Endpoint) (r : TokenRequest) (past : List StoreEvent) (t : TokenResponse) :
    Prop
  | code {c : AuthorizationCode} {rec : TokenRecord} (htype : r.grantType = "authorization_code")
    (hfound : foundCode c ∈ past) (hstored : stored rec ∈ past)
    (hclient : r.clientId = some rec.clientId) (hgrants : c.Grants rec)
    (htells : t.Tells e.tokenPolicy.issuer (c.nonce.getD "") true rec)
  | refresh {parent rec : TokenRecord} (htype : r.grantType = "refresh_token")
    (hfound : foundRecord parent ∈ past) (hstored : stored rec ∈ past)
    (hclient : r.clientId = some rec.clientId) (hcontinues : rec.Continues parent)
    (htells : t.Tells e.tokenPolicy.issuer "" false rec)

theorem require_ok {name v : String} {value : Option String}
    (h : TokenRequest.require name value = .ok v) : value = some v ∧ filled? value = some v := by
  unfold TokenRequest.require at h
  split at h <;> cases h
  exact ⟨(Option.filter_eq_some_iff.1 ‹_›).1, ‹_›⟩

theorem obeys_codeGrant (e : Endpoint) {r : TokenRequest}
    (htype : r.grantType = "authorization_code") (hcode : φ.request.code? = r.code?) :
    (e.codeGrant r).Obeys discipline (Goes φ (Granted e r)) φ := by
  unfold Endpoint.codeGrant
  refine .ofExcept (fun code hv => ?_) fun _ _ => obeys_error _ _
  refine .ofExcept (fun clientId hclient => ?_) fun _ _ => obeys_error _ _
  refine .ofExcept (fun redirectUri _ => .ask nofun fun now => ?_) fun _ _ => obeys_error _ _
  have hcode : φ.request.code? = some code := by
    rw [hcode, TokenRequest.code?, if_pos htype, (require_ok hv).2]
  refine obeys_bind (obeys_redeem _ _ now hcode) ?_
  rintro _ ψ - ⟨c, hfound, hmarked, hown, rfl⟩
  refine .ask nofun fun now' => ?_
  have horigin : ∀ t rec, Outcome.Minted ⟨⟨some c.userId, c.clientId, " ".intercalate c.scopes,
      [c.clientId], c.nonce⟩, none, true⟩ (.ok (t, rec)) → c.Grants rec := by
    rintro t rec ⟨hparent, -, hclient, huser, hscope, -⟩
    exact ⟨hparent, hclient, huser, hscope⟩
  refine obeys_bind (obeys_issue _ _ now' fun t rec h => .code hfound hmarked (horigin t rec h)) ?_
  rintro t χ hχ ⟨rec, hrec, hminted, hbears⟩
  have hgrants := horigin t rec hminted
  refine obeys_ok (.code htype (hχ.past hfound) hrec ?_ hgrants (tells_of_mint hminted hbears rfl))
  rw [(require_ok hclient).1, hgrants.clientId, hown]

theorem obeys_refreshGrant (e : Endpoint) {r : TokenRequest}
    (htype : r.grantType = "refresh_token") :
    (e.refreshGrant r).Obeys discipline (Goes φ (Granted e r)) φ := by
  unfold Endpoint.refreshGrant
  refine .ofExcept (fun token _ => ?_) fun _ _ => obeys_error _ _
  refine .ofExcept (fun clientId hclient => .ask nofun fun now => ?_) fun _ _ => obeys_error _ _
  refine obeys_bind (obeys_refresh _ _ now) ?_
  rintro t ψ - ⟨parent, hfound, hown, rec, hrec, hminted, hbears⟩
  have hown : clientId = parent.clientId := hown clientId rfl
  have ⟨hparent, _, hclientId, huser, hscope, _⟩ := hminted
  refine obeys_ok (.refresh htype hfound hrec ?_ ⟨hparent, hclientId, huser, hscope⟩ ?_)
  · rw [(require_ok hclient).1, hown]
    exact congrArg some hclientId.symm
  · exact tells_of_mint hminted hbears (congrArg (fun id => [id]) hown)

theorem obeys_tokenRequest (e : Endpoint) {r : TokenRequest} (hcode : φ.request.code? = r.code?) :
    (e.exchange r).Obeys discipline (Goes φ (Granted e r)) φ := by
  unfold Endpoint.exchange
  split_ifs with hcodeGrant hrefresh
  · exact obeys_afterRotation (obeys_codeGrant e hcodeGrant hcode)
  · exact obeys_afterRotation (obeys_refreshGrant e hrefresh)
  · exact obeys_error _ _

/-- What the answer to a request tells of what it has done. -/
def Fits : (q : Request) → Progress → Outcome q.Result → Prop
  | .issueCode _ _ _, φ, o => o.Yields (fun v => ∃ c, created c ∈ φ.past ∧ c.code = v) ∧
      ∀ c, created c ∈ φ.past → o = .ok c.code
  | .exchange e r, φ, o => o.Yields (Granted e r φ.past)
  | .token e r, φ, o => ∀ t, o = .ok (.ok t) → Granted e r φ.past t
  | _, _, _ => True

theorem obeys_issueCode (r : CodeRequest) (p : CodePolicy) (now : Instant) :
    (Codes.issue p r now).Obeys discipline (Fits (.issueCode r p now))
      ⟨.issueCode r p now, []⟩ := by
  have hread : ∀ a c, created c ∉ [(⟨.getClient r.clientId, a⟩ : StoreEvent)] :=
    fun a c hc => by cases List.mem_singleton.1 hc
  unfold Codes.issue
  refine .ofStore trivial (fun client hclient => ?_) fun e =>
    ⟨trivial, fun c hc => absurd hc (hread _ c)⟩
  rcases client with _ | client
  · exact ⟨trivial, fun c hc => absurd hc (hread _ c)⟩
  have hid := hclient client rfl
  refine .ofExcept (fun t haccept => .ask nofun fun _ => .after (fun expiresAt hexpires => ?_) ?_)
    fun e _ => ⟨trivial, fun c hc => absurd hc (hread _ c)⟩
  · obtain ⟨scopes, method⟩ := t
    refine .ofStore ⟨r, p, now, client, rfl, ?_, hid, haccept, hexpires, hid, rfl, rfl, rfl, rfl,
      rfl⟩ (fun _ _ => .ask nofun fun _ => ⟨⟨_, mem_next _ _ _, rfl⟩, fun c hc => ?_⟩)
      fun e => ⟨trivial, fun c hc => ?_⟩
    · rw [foundClient, hid]
      exact mem_next _ _ _
    · rcases List.mem_append.1 hc with hc | hc
      · exact absurd hc (hread _ c)
      · cases List.mem_singleton.1 hc
        rfl
    · rcases List.mem_append.1 hc with hc | hc
      · exact absurd hc (hread _ c)
      · cases List.mem_singleton.1 hc
  · exact ⟨trivial, fun c hc => absurd hc (hread _ c)⟩

theorem obeys_request (q : Request) : q.operation.Obeys discipline (Fits q) ⟨q, []⟩ := by
  cases q with
  | issue r p now =>
    refine (obeys_of_only (A := Permits) ?_ _ [] (only_issue r p now)).mono fun _ _ _ => trivial
    rintro past (_ | _ | _ | _ | _ | _ | r) hc
    case createRecord => exact .issue rfl hc.1
    all_goals trivial
  | refresh r p now => exact (obeys_refresh r p now).mono fun _ _ _ => trivial
  | revoke t =>
    refine (obeys_of_only (A := Permits) ?_ _ [] (only_revoke t)).mono fun _ _ _ => trivial
    rintro _ _ ⟨x, rfl⟩
    trivial
  | issueCode r p now => exact obeys_issueCode r p now
  | redeem r p now => exact (obeys_redeem p r now rfl).mono fun _ _ _ => trivial
  | exchange e r => exact (obeys_tokenRequest e rfl).mono fun _ _ h => h.2
  | token e r =>
    refine .attempt (obeys_tokenRequest e rfl) ?_ ?_ fun _ _ _ => nofun
    · rintro ψ t ⟨-, ht⟩ _ ⟨rfl⟩
      exact ht
    · rintro ψ t _ _ ⟨⟩
  | userinfo t =>
    refine (obeys_of_only (A := Permits) ?_ _ [] (only_userinfo t)).mono fun _ _ _ => trivial
    rintro _ _ ⟨id, rfl⟩
    trivial
  | _ => exact .of_quiet (fun _ _ => trivial) (quiet_request rfl)

def regime : Regime Progress := ⟨discipline, fun q => ⟨q, []⟩, Fits, obeys_request⟩

end Grants

end History

end TokenAuthority

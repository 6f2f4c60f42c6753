import TokenAuthority.Proofs.Code.Redemption
import TokenAuthority.Proofs.Lifetimes
import TokenAuthority.Proofs.Scopes

/-!
# Which codes are issued

What the checks of a request for a code let pass, in words of the request and the client alone: what
any request has to show (`Codes.Admits`) and the ways in which it may secure the code
(`Codes.Secures`, `accept_eq_ok_iff`). On a store that works just these requests get a code, which
is bound to what was asked for (`Codes.Grants`).
-/

namespace TokenAuthority

open Operation Time

namespace Pkce

/-- The form of a challenge that is a digest, in RFC 7636. -/
structure DigestForm (challenge : String) : Prop where
  length : challenge.length = 43
  base64Url : ∀ c ∈ challenge.toList, isBase64Url c

theorem isUnreserved_of_isBase64Url {c : Char} (h : isBase64Url c) : isUnreserved c := by
  unfold isBase64Url at h
  unfold isUnreserved
  simp only [Bool.or_eq_true] at h ⊢
  tauto

/-- The form of a challenge that a method can have made. -/
def ChallengeForm (challenge : String) : PkceMethod → Prop
  | .plain => VerifierForm challenge
  | .s256 => DigestForm challenge

theorem hasChallengeForm_iff {challenge : String} {m : PkceMethod} :
    hasChallengeForm challenge m ↔ ChallengeForm challenge m := by
  cases m with
  | plain =>
    unfold hasChallengeForm ChallengeForm
    dsimp only
    rw [← checkVerifier_eq_ok_iff]
    rcases checkVerifier challenge with e | ⟨⟩ <;> simp [Except.isOk, Except.toBool]
  | s256 =>
    unfold hasChallengeForm ChallengeForm
    dsimp only
    rw [Bool.and_eq_true, decide_eq_true_eq, List.all_eq_true]
    constructor
    · rintro ⟨hsize, hall⟩
      exact ⟨by rw [← utf8ByteSize_of_unreserved fun c hc =>
        isUnreserved_of_isBase64Url (hall c hc), hsize], hall⟩
    · rintro ⟨hlength, hall⟩
      exact ⟨by rw [utf8ByteSize_of_unreserved fun c hc =>
        isUnreserved_of_isBase64Url (hall c hc), hlength], hall⟩

end Pkce

theorem PkceMethod.parse_eq_ok_iff {name : Option String} {m : PkceMethod} :
    parse name = .ok m ↔ m = .s256 ∧ name = some "S256" ∨
      m = .plain ∧ name ∈ [none, some "", some "plain"] := by
  unfold parse
  split <;> cases m <;> simp_all

namespace Codes

variable {p : CodePolicy} {q : CodeRequest} {client : Client} {c : AuthorizationCode}
  {now : Instant} {w : World}

/-- What a client has to show for any code. -/
structure Admits (client : Client) (q : CodeRequest) : Prop where
  redirectUri : q.redirectUri ∈ client.redirectUris
  userId : q.userId ≠ ""
  scopes : client.scopes = [] ∨ ∀ scope ∈ Text.words q.scope, scope ∈ client.scopes

/-- How a request may secure a code, with the method that is kept. -/
inductive Secures (p : CodePolicy) (client : Client) (q : CodeRequest) : Option PkceMethod → Prop
  | bySecret (hchallenge : q.challenge = none) (hmethod : q.method = none)
    (hconfidential : client.confidential = true) (hrequired : client.pkceRequired = false) :
    Secures p client q none
  | byDigest {challenge : String} (hchallenge : q.challenge = some challenge)
    (hfilled : challenge ≠ "") (hmethod : q.method = some "S256")
    (hform : p.strictFormat → Pkce.DigestForm challenge) : Secures p client q (some .s256)
  | byVerifier {challenge : String} (hchallenge : q.challenge = some challenge)
    (hfilled : challenge ≠ "") (hmethod : q.method ∈ [none, some "", some "plain"])
    (hallowed : p.allowPlain = true) (hform : p.strictFormat → Pkce.VerifierForm challenge) :
    Secures p client q (some .plain)

theorem acceptChallenge_eq_ok_iff {challenge : String} {name : Option String} {m : PkceMethod} :
    acceptChallenge p challenge name = .ok m ↔ PkceMethod.parse name = .ok m ∧
      (m = .plain → p.allowPlain = true) ∧ challenge ≠ "" ∧
      (p.strictFormat → Pkce.ChallengeForm challenge m) := by
  unfold acceptChallenge Pkce.checkChallenge
  rcases PkceMethod.parse name with e | k
  · exact ⟨nofun, fun h => nomatch h.1⟩
  simp only [Bind.bind, Except.bind, ← Pkce.hasChallengeForm_iff, Except.ok.injEq]
  by_cases hplain : k = .plain ∧ p.allowPlain = false
  · rw [if_pos hplain]
    refine ⟨nofun, ?_⟩
    rintro ⟨rfl, hallowed, -⟩
    simp [hallowed hplain.1] at hplain
  rw [if_neg hplain]
  by_cases hempty : challenge = ""
  · rw [if_pos hempty]
    exact ⟨nofun, fun h => absurd hempty h.2.2.1⟩
  rw [if_neg hempty]
  have hallowed : k = .plain → p.allowPlain = true := by simpa using hplain
  constructor
  · intro h
    obtain ⟨rfl, hform⟩ : k = m ∧
        (p.strictFormat = true → Pkce.hasChallengeForm challenge k = true) := by
      split_ifs at h <;> cases h <;> exact ⟨rfl, by simp_all⟩
    exact ⟨rfl, hallowed, hempty, hform⟩
  · rintro ⟨rfl, -, -, hform⟩
    split_ifs with hstrict hgood
    · rfl
    · exact absurd (hform hstrict) hgood
    · rfl

theorem acceptMethod_eq_ok_iff {m : Option PkceMethod} :
    acceptMethod p client q = .ok m ↔ Secures p client q m := by
  unfold acceptMethod
  rcases hq : q.challenge with _ | challenge
  · dsimp only
    have hrequires : client.requiresPkce = false ↔
        client.confidential = true ∧ client.pkceRequired = false := by
      simp [Client.requiresPkce]
    constructor
    · intro h
      split_ifs at h with hpkce hmethod
      cases h
      obtain ⟨hconfidential, hrequired⟩ := hrequires.1 (Bool.eq_false_iff.2 hpkce)
      exact .bySecret hq (by simpa using hmethod) hconfidential hrequired
    · intro h
      cases h with
      | bySecret _ hmethod hconfidential hrequired =>
        rw [hrequires.2 ⟨hconfidential, hrequired⟩, hmethod]
        rfl
      | byDigest hchallenge | byVerifier hchallenge => cases hq.symm.trans hchallenge
  · have hsome : some <$> acceptChallenge p challenge q.method = .ok m ↔
        ∃ k, acceptChallenge p challenge q.method = .ok k ∧ m = some k := by
      rcases acceptChallenge p challenge q.method with e | k
      · exact ⟨nofun, fun ⟨_, h, _⟩ => nomatch h⟩
      · simp [eq_comm]
    dsimp only
    rw [hsome]
    simp only [acceptChallenge_eq_ok_iff, PkceMethod.parse_eq_ok_iff]
    constructor
    · rintro ⟨k, ⟨⟨rfl, hmethod⟩ | ⟨rfl, hmethod⟩, hallowed, hfilled, hform⟩, rfl⟩
      · exact .byDigest hq hfilled hmethod hform
      · exact .byVerifier hq hfilled hmethod (hallowed rfl) hform
    · intro h
      cases h with
      | bySecret hnone => cases hq.symm.trans hnone
      | byDigest hchallenge hfilled hmethod hform =>
        obtain rfl := Option.some.inj (hq.symm.trans hchallenge)
        exact ⟨_, ⟨.inl ⟨rfl, hmethod⟩, nofun, hfilled, hform⟩, rfl⟩
      | byVerifier hchallenge hfilled hmethod hallowed hform =>
        obtain rfl := Option.some.inj (hq.symm.trans hchallenge)
        exact ⟨_, ⟨.inr ⟨rfl, hmethod⟩, fun _ => hallowed, hfilled, hform⟩, rfl⟩

theorem allowsScopes_iff : client.allowsScopes (.parse q.scope) ↔
    client.scopes = [] ∨ ∀ scope ∈ Text.words q.scope, scope ∈ client.scopes := by
  unfold Client.allowsScopes ScopeSet.isSubsetOf
  rw [ScopeSet.scopes_parse]
  simp

theorem admits_iff : Admits client q ↔ client.allowsRedirect q.redirectUri ∧ q.userId ≠ "" ∧
    client.allowsScopes (.parse q.scope) := by
  rw [allowsScopes_iff, Client.allowsRedirect, List.contains_iff_mem]
  exact ⟨fun h => ⟨h.redirectUri, h.userId, h.scopes⟩, fun ⟨huri, huser, hscopes⟩ =>
    ⟨huri, huser, hscopes⟩⟩

/-- What a client may ask for is refused for its challenge only. -/
theorem accept_of_admits (h : Admits client q) :
    accept p client q = (ScopeSet.parse q.scope, ·) <$> acceptMethod p client q := by
  obtain ⟨huri, huser, hallows⟩ := admits_iff.1 h
  unfold accept
  dsimp only
  rw [if_neg (by simp [huri]), if_neg huser, if_neg (by simp [hallows])]

/-- What the checks let pass. -/
theorem accept_eq_ok_iff {t : ScopeSet × Option PkceMethod} : accept p client q = .ok t ↔
    Admits client q ∧ Secures p client q t.2 ∧ t.1 = ScopeSet.parse q.scope := by
  rw [← acceptMethod_eq_ok_iff]
  constructor
  · intro h
    obtain ⟨hscopes, hmethod⟩ := scopes_of_accept h
    refine ⟨admits_iff.2 ?_, hmethod, hscopes⟩
    unfold accept at h
    dsimp only at h
    split_ifs at h with huri huser hallows
    exact ⟨by simpa using huri, huser, by simpa using hallows⟩
  · rintro ⟨hadmits, hmethod, hscopes⟩
    rw [accept_of_admits hadmits, hmethod, ← hscopes]
    rfl

/-- The code of a request. -/
structure Grants (p : CodePolicy) (q : CodeRequest) (now : Instant) (client : Client)
    (c : AuthorizationCode) : Prop where
  used : c.used = false
  clientId : c.clientId = q.clientId
  userId : c.userId = q.userId
  redirectUri : c.redirectUri = q.redirectUri
  scopes : c.scopes = (Text.words q.scope).eraseDups
  challenge : c.challenge = q.challenge
  method : Secures p client q c.method
  nonce : c.nonce = filled? q.nonce
  expiresAt : now.after p.lifetime = some c.expiresAt
  createdAt : c.createdAt = now

end Codes

/-- The code that a call was to store. -/
def StoreEvent.code? : StoreEvent → Option AuthorizationCode
  | ⟨.createCode c, _⟩ => some c
  | _ => none

theorem Store.createCode_of_some {s : Store} {c c' : AuthorizationCode}
    (h : s.code? c.code = some c') :
    s.createCode c = (.error (.duplicate "authorization code"), s) := by
  unfold createCode
  rw [h]

/-- The codes that were to be stored are new. -/
def Store.Unissued (s : Store) (past : List StoreEvent) : Prop :=
  ∀ c ∈ past.filterMap StoreEvent.code?, s.code? c.code = none

instance (s : Store) (past : List StoreEvent) : Decidable (s.Unissued past) :=
  inferInstanceAs (Decidable (∀ c ∈ past.filterMap StoreEvent.code?, s.code? c.code = none))

theorem Store.Unissued.mono {s : Store} {past later : List StoreEvent} (h : past ⊆ later)
    (hnew : s.Unissued later) : s.Unissued past := fun c hc =>
  hnew c (List.filterMap_subset _ h hc)

namespace Codes

variable {p : CodePolicy} {q : CodeRequest} {now : Instant} {w : World}

/-- How the issue of a code on a store that works can go. -/
inductive Issuing (p : CodePolicy) (q : CodeRequest) (now : Instant) (s : Store) :
    Outcome String → Store → List StoreEvent → Prop
  | issued {client : Client} {c : AuthorizationCode} {past : List StoreEvent}
    (hclient : s.client? q.clientId = some client) (hadmits : Admits client q)
    (hgrants : Grants p q now client c) (hnew : s.code? c.code = none) :
    Issuing p q now s (.ok c.code) { s with codes := s.codes ++ [c] } past
  | refused {e : TokenError} {past : List StoreEvent}
    (h : ∀ client m, s.client? q.clientId = some client → Admits client q →
      ¬ Secures p client q m) : Issuing p q now s (.error e) s past
  /-- The code has been issued before. -/
  | taken {e : TokenError} {past : List StoreEvent} (h : ¬ s.Unissued past) :
    Issuing p q now s (.error e) s past

theorem Issuing.mono {s s' : Store} {o : Outcome String} {past later : List StoreEvent}
    (h : past ⊆ later) : Issuing p q now s o s' past → Issuing p q now s o s' later
  | .issued hclient hadmits hgrants hnew => .issued hclient hadmits hgrants hnew
  | .refused hrefused => .refused hrefused
  | .taken hnew => .taken (mt (.mono h) hnew)

/-- What may be asked for gets a code that is new. -/
theorem Issuing.exists_ok {s s' : Store} {o : Outcome String} {past : List StoreEvent}
    {client : Client} {m : Option PkceMethod} (h : Issuing p q now s o s' past)
    (hclient : s.client? q.clientId = some client) (hadmits : Admits client q)
    (hsecures : Secures p client q m) (hnew : s.Unissued past) : ∃ v, o = .ok v := by
  cases h with
  | issued => exact ⟨_, rfl⟩
  | refused h => exact absurd hsecures (h client m hclient hadmits)
  | taken h => exact absurd hnew h

theorem ensures_create {client : Client} {c : AuthorizationCode}
    (hclient : w.store.client? q.clientId = some client) (hadmits : Admits client q)
    (hgrants : Grants p q now client c) :
    (do ofStore (.createCode c); count (.codes .issued); return c.code : Operation String).Ensures
      (·.healthy) w fun o w' past => Issuing p q now w.store o w'.store past := by
  rcases hcode : w.store.code? c.code with _ | c'
  · refine .answered (Store.createCode_of_none hcode) ?_
    exact .count (f := fun _ => pure c.code) (.issued hclient hadmits hgrants hcode)
  · refine .declined (Store.createCode_of_some hcode) (.taken fun hnew => ?_)
    have hnone := hnew c (by simp [StoreEvent.code?])
    cases hcode.symm.trans hnone

theorem ensures_issue (hlifetime : (now.after p.lifetime).isSome) :
    (issue p q now).Ensures (·.healthy) w fun o w' past =>
      Issuing p q now w.store o w'.store past := by
  unfold issue
  refine .answered rfl ?_
  rcases hc : w.store.client? q.clientId with _ | client
  · exact Issuing.refused fun _ _ h => nomatch hc.symm.trans h
  have hid : client.clientId = q.clientId := by simpa using List.find?_some hc
  dsimp only
  refine .ofExcept (fun t ht => ?_) fun e he => ?_
  · obtain ⟨hadmits, hsecures, hscopes⟩ := accept_eq_ok_iff.1 ht
    refine .random fun bytes => .after (fun expiresAt hexpires => ?_) fun hnone => ?_
    · refine (ensures_create hc hadmits ?_).mono fun _ _ _ h => h.mono (List.subset_cons_self _ _)
      refine ⟨rfl, hid, rfl, rfl, ?_, rfl, hsecures, rfl, hexpires, rfl⟩
      rw [← ScopeSet.scopes_parse, ← hscopes]
    · rw [hnone] at hlifetime
      cases hlifetime
  · refine Issuing.refused fun client' m hclient hadmits hsecures => ?_
    obtain rfl := Option.some.inj (hc.symm.trans hclient)
    have hok : accept p client q = .ok (ScopeSet.parse q.scope, m) :=
      accept_eq_ok_iff.2 ⟨hadmits, hsecures, rfl⟩
    cases he.symm.trans hok

/-- A working store lets a request for a code fail as its checks say. -/
theorem ensures_issue_error {client : Client} {e : TokenError}
    (hclient : w.store.client? q.clientId = some client) (he : accept p client q = .error e) :
    (issue p q now).Ensures (·.healthy) w fun o _ _ => o = .error e := by
  unfold issue
  refine .answered rfl ?_
  rw [hclient]
  dsimp only
  rw [he]
  exact rfl

end Codes

open Codes

end TokenAuthority

import TokenAuthority.Proofs.Chain.Retry
import TokenAuthority.Proofs.Code.Redemption

/-!
# Exchanges of a code that fail

How an exchange of a code ends on a store that works is settled by what it reads
(`Endpoint.verdict`): the client that the code was issued to, and a key, which there is after a
rotation. If a call fails before the code is marked then nothing has changed; one that
fails later costs the code, since tokens are minted and stored only after that (`Endpoint.Course`,
`ensures_exchange`). Both end with an error of the server, so that of these errors some can be tried
again and others cannot (`failed_code_exchange`).
-/

namespace TokenAuthority

open Operation StoreEvent Time Codes

/-- At an instant, store and key generator work. -/
structure Reply.Works (reply : Reply) (now : Timestamp) : Prop where
  store : reply.healthy
  keys : reply.keyFailure = none
  clock : reply.clock = now

namespace Issuance

def first (r : IssueRequest) (clientId : String) : Mint := ⟨{ r with clientId }, none, true⟩

def verdict (r : IssueRequest) (p : TokenPolicy) (now : Instant) (s : Store) (ring : KeyRing) :
    Outcome Unit :=
  match s.client? r.clientId with
  | none => .error (.clientNotFound r.clientId)
  | some c => (first r c.clientId).verdict p now ring

/-- The client could not be looked up or the record not be stored. -/
def Broken (past : List StoreEvent) : Prop :=
  (∃ id e, ⟨.getClient id, .error e⟩ ∈ past) ∨ ∃ r e, ⟨.createRecord r, .error e⟩ ∈ past

inductive Course (G : Reply → Prop) (r : IssueRequest) (p : TokenPolicy) (now : Instant)
    (w : World) : Outcome TokenSet → World → List StoreEvent → Prop
  | settled {o : Outcome TokenSet} {w' : World} {past : List StoreEvent}
    (hkind : o.kind = verdict r p now w.store w.ring)
    (hfinal : ∀ e, o = .error e → e.retryable = false) : Course G r p now w o w' past
  | failed {d : String} {w' : World} {past : List StoreEvent} (hw : w.Leaves w.store w')
    (hbroken : Broken past) (hcause : Fallible G ∨ ¬ w.store.Fresh past) :
    Course G r p now w (.error (.serverError d)) w' past

theorem Broken.mono {past later : List StoreEvent} (h : past ⊆ later) : Broken past → Broken later
  | .inl ⟨id, e, he⟩ => .inl ⟨id, e, h he⟩
  | .inr ⟨r, e, he⟩ => .inr ⟨r, e, h he⟩

section Rules

variable {G : Reply → Prop} {r : IssueRequest} {p : TokenPolicy} {now : Instant} {w : World}

theorem Course.mono {o : Outcome TokenSet} {w' : World} {past later : List StoreEvent}
    (h : past ⊆ later) : Course G r p now w o w' past → Course G r p now w o w' later
  | .settled hkind hfinal => .settled hkind hfinal
  | .failed hw hbroken hcause => .failed hw (hbroken.mono h) (hcause.imp_right (mt (.mono h)))

theorem Course.of_error {e : TokenError} {w' : World} {past : List StoreEvent}
    (hv : verdict r p now w.store w.ring = .error e) (he : e.retryable = false) :
    Course G r p now w (.error e) w' past := by
  refine .settled hv.symm ?_
  rintro _ ⟨⟩
  exact he

theorem ensures_issue : (issue r p now).Ensures G w (Course G r p now w) := by
  unfold issue
  refine .resolve (fun hG e => ?_) (fun hc => ?_) fun c hc => ?_
  · exact .failed ⟨rfl, rfl⟩ (.inl ⟨_, _, List.mem_singleton_self _⟩) (.inl hG)
  · exact .of_error (by simp only [verdict, hc]) rfl
  have hverdict : verdict r p now w.store w.ring = (first r c.clientId).verdict p now w.ring := by
    simp only [verdict, hc]
  refine .mint (fun t hv hminted => ?_) (fun e hv hminted => ?_) fun hv => ?_
  · have hfailed : ∀ e, (⟨.createRecord t.2, .error e⟩ : StoreEvent) ∈
        [⟨.getClient r.clientId, (.ok (some c) : Except StoreError (Option Client))⟩,
          ⟨.createRecord t.2, .error e⟩] :=
      fun _ => List.mem_cons_of_mem _ (List.mem_singleton_self _)
    -- A store that works refuses a record, too, if its identifier is taken.
    rcases hr : w.store.record? t.2.refreshId with _ | r'
    · have hcreate := Store.createRecord_of_not_known (s := w.store) (r := t.2)
        fun ⟨r', hr'⟩ => nomatch hr.symm.trans hr'
      refine .ofStore (r := ()) (congrArg Prod.fst hcreate) (fun hG e => ?_) ?_
      · exact .failed ⟨rfl, rfl⟩ (.inr ⟨_, _, hfailed e⟩) (.inl hG)
      · exact .ring (.count (.count (.count (.settled (hverdict.trans hv).symm nofun))))
    · have hcreate : w.store.createRecord t.2 =
          (.error (.duplicate "refresh identifier"), w.store) := by
        unfold Store.createRecord
        rw [hr]
      refine .refused (congrArg Prod.fst hcreate) (fun hG e => ?_) ?_
      · exact .failed ⟨rfl, rfl⟩ (.inr ⟨_, _, hfailed e⟩) (.inl hG)
      · refine .failed ⟨congrArg Prod.snd hcreate, rfl⟩ (.inr ⟨_, _, hfailed _⟩) (.inr fun h => ?_)
        exact Store.Fresh.not_known h (List.mem_filterMap.2 ⟨_, hfailed _, rfl⟩) ⟨r', hr⟩
  · refine .of_error (hverdict.trans hv) ?_
    rcases hminted with rfl | ⟨d, rfl⟩
    · rfl
    · rfl
  · exact .settled (hverdict.trans hv).symm nofun

end Rules

end Issuance

section Marking

variable {s : Store} {v : String}

theorem Store.markCodeUsed_snd (s : Store) (v : String) :
    ∃ codes, (s.markCodeUsed v).2 = { s with codes } := by
  rw [markCodeUsed_eq]
  rcases s.code? v with _ | c
  · exact ⟨s.codes, rfl⟩
  · dsimp only
    split_ifs
    · exact ⟨s.codes, rfl⟩
    · exact ⟨_, rfl⟩

theorem fresh_markCodeUsed {past : List StoreEvent} :
    (s.markCodeUsed v).2.Fresh past ↔ s.Fresh past := by
  obtain ⟨codes, h⟩ := s.markCodeUsed_snd v
  rw [h]
  rfl

theorem verdict_markCodeUsed (r : IssueRequest) (p : TokenPolicy) (now : Instant)
    (ring : KeyRing) :
    Issuance.verdict r p now (s.markCodeUsed v).2 ring = Issuance.verdict r p now s ring := by
  obtain ⟨codes, h⟩ := s.markCodeUsed_snd v
  rw [h]
  rfl

end Marking

namespace Endpoint

/-- What a token request shows to redeem a code. -/
def redemption (r : TokenRequest) : Except TokenError Redemption := do
  let code ← TokenRequest.require "code" r.code
  let clientId ← TokenRequest.require "client_id" r.clientId
  let redirectUri ← TokenRequest.require "redirect_uri" r.redirectUri
  return ⟨code, clientId, redirectUri, r.verifier⟩

def issueRequest (c : AuthorizationCode) : IssueRequest where
  userId := some c.userId
  clientId := c.clientId
  scope := " ".intercalate c.scopes
  audience := [c.clientId]
  nonce := c.nonce

/-- How an exchange of a code ends if the store works. -/
def verdict (e : Endpoint) (r : TokenRequest) (now now' : Instant) (s : Store) (ring : KeyRing) :
    Outcome Unit :=
  match redemption r with
  | .error err => .error err
  | .ok q =>
    match checked e.codePolicy q now s with
    | .error err => .error err
    | .ok c => Issuance.verdict (issueRequest c) e.tokenPolicy now' s ring

inductive Course (G : Reply → Prop) (e : Endpoint) (r : TokenRequest) (w : World) :
    Outcome TokenResponse → World → List StoreEvent → Prop
  | settled {now now' : Timestamp} {o : Outcome TokenResponse} {w' : World}
    {past : List StoreEvent}
    (hnow : ∃ reply, G reply ∧ reply.clock = now) (hnow' : ∃ reply, G reply ∧ reply.clock = now')
    (hkind : o.kind = verdict e r now now' w.store w.ring)
    (hfinal : ∀ err, o = .error err → err.retryable = false) : Course G e r w o w' past
  /-- A call fails before the code is marked. -/
  | kept {d : String} {w' : World} {past : List StoreEvent} (hG : Fallible G)
    (hw : w.Leaves w.store w') : Course G e r w (.error (.serverError d)) w' past
  /-- A call fails after the code was marked. -/
  | spent {d : String} {q : Redemption} {c : AuthorizationCode} {now : Instant} {w' : World}
    {past : List StoreEvent} (hq : redemption r = .ok q)
    (hc : checked e.codePolicy q now w.store = .ok c)
    (hw : w.Leaves (w.store.markCodeUsed q.code).2 w') (hbroken : Issuance.Broken past)
    (hcause : Fallible G ∨ ¬ w.store.Fresh past) :
    Course G e r w (.error (.serverError d)) w' past

theorem codeGrant_eq (e : Endpoint) (r : TokenRequest) : e.codeGrant r = (do
    let q ← ofExcept (redemption r)
    let redeemed ← Codes.redeem e.codePolicy q (← ask .clock)
    let tokens ← Issuance.issue (issueRequest redeemed) e.tokenPolicy (← ask .clock)
    return .ofTokenSet tokens) := by
  unfold codeGrant redemption
  rcases TokenRequest.require "code" r.code with err | code
  · rfl
  rcases TokenRequest.require "client_id" r.clientId with err | clientId
  · rfl
  rcases TokenRequest.require "redirect_uri" r.redirectUri with err | redirectUri
  · rfl
  · rfl

theorem require_error {name : String} {value : Option String} {err : TokenError}
    (h : TokenRequest.require name value = .error err) : ∃ m, err = .invalidRequest m := by
  unfold TokenRequest.require at h
  split at h <;> cases h
  exact ⟨_, rfl⟩

theorem redemption_spec (r : TokenRequest) : match redemption r with
    | .error err => ∃ m, err = .invalidRequest m
    | .ok q => r.code = some q.code := by
  unfold redemption
  rcases hcode : TokenRequest.require "code" r.code with err | code
  · exact require_error hcode
  rcases hid : TokenRequest.require "client_id" r.clientId with err | id
  · exact require_error hid
  rcases huri : TokenRequest.require "redirect_uri" r.redirectUri with err | uri
  · exact require_error huri
  · exact (History.require_ok hcode).1

section Rules

variable {G : Reply → Prop} {e : Endpoint} {r : TokenRequest} {w : World}

theorem Course.refused {now : Timestamp} {err : TokenError} {w' : World} {past : List StoreEvent}
    (hnow : ∃ reply, G reply ∧ reply.clock = now)
    (hv : verdict e r now now w.store w.ring = .error err) (hfinal : err.retryable = false) :
    Course G e r w (.error err) w' past := by
  refine .settled hnow hnow hv.symm ?_
  rintro _ ⟨⟩
  exact hfinal

theorem ensures_spend {q : Redemption} {c : AuthorizationCode} {now : Timestamp} {w' : World}
    {earlier : List StoreEvent} (hnow : ∃ reply, G reply ∧ reply.clock = now)
    (hq : redemption r = .ok q) (hc : checked e.codePolicy q now w.store = .ok c)
    (hw : w.Leaves (w.store.markCodeUsed q.code).2 w') :
    (do
      let request := issueRequest { c with used := true }
      let tokens ← Issuance.issue request e.tokenPolicy (← ask .clock)
      return TokenResponse.ofTokenSet tokens : Operation TokenResponse).Ensures G w'
      fun o w'' past => Course G e r w o w'' (earlier ++ past) := by
  refine .clock fun reply hreply => Issuance.ensures_issue.bind ?_
  rintro o w'' past (⟨hkind, hfinal⟩ | ⟨hw'', hbroken, hcause⟩)
  · have hv : o.kind = verdict e r now reply.clock w.store w.ring := by
      rw [hkind, hw.store, hw.ring, verdict_markCodeUsed]
      simp only [verdict, hq, hc]
      rfl
    have hsettled : ∀ {o' : Outcome TokenResponse} {past}, o'.kind = o.kind →
        (∀ err, o' = .error err → err.retryable = false) → Course G e r w o' w'' past :=
      fun h => .settled hnow ⟨reply, hreply, rfl⟩ (h.trans hv)
    cases o with
    | ok t => exact hsettled rfl nofun
    | error err =>
      refine hsettled rfl ?_
      rintro _ ⟨⟩
      exact hfinal err rfl
    | overflow => exact hsettled rfl nofun
  · have hsub : past ⊆ earlier ++ past := List.subset_append_right _ _
    refine .spent hq hc ⟨hw''.store.trans hw.store, hw''.ring.trans hw.ring⟩ (hbroken.mono hsub) ?_
    rw [hw.store, fresh_markCodeUsed] at hcause
    exact hcause.imp_right (mt (.mono hsub))

theorem ensures_codeGrant (hG : ∃ reply, G reply) :
    (e.codeGrant r).Ensures G w (Course G e r w) := by
  rw [codeGrant_eq]
  refine .ofExcept (fun q hq => .clock fun reply hreply => ensures_redeem.bind ?_)
    fun err herr => ?_
  · have hnow : ∃ reply', G reply' ∧ reply'.clock = reply.clock := ⟨reply, hreply, rfl⟩
    rintro o w' past (⟨hc, hw⟩ | ⟨he, hw⟩ | ⟨hG, hw⟩)
    · exact ensures_spend hnow hq hc hw
    · obtain ⟨m, rfl⟩ := checked_error he
      exact .refused hnow (by simp only [verdict, hq, he]) rfl
    · exact .kept hG hw
  -- Nobody has looked at the clock yet, so any instant will do.
  · obtain ⟨reply, hreply⟩ := hG
    have herror := redemption_spec r
    rw [herr] at herror
    obtain ⟨m, rfl⟩ := herror
    exact .refused ⟨reply, hreply, rfl⟩ (by simp only [verdict, herr]) rfl

theorem ensures_exchange (hG : ∃ reply, G reply) (hr : r.grantType = "authorization_code") :
    (e.exchange r).Ensures G w fun o w' past => ∃ w₁ : World, w₁.store = w.store ∧
      ((∀ reply, G reply → reply.keyFailure = none) → w₁.ring.Signs) ∧
      Course G e r w₁ o w' past := by
  unfold exchange
  rw [if_pos hr]
  refine .afterRotation fun w₁ hstore hsigns => ?_
  exact (ensures_codeGrant hG).mono fun _ _ _ h => ⟨w₁, hstore, hsigns, h⟩

end Rules

section Retries

variable {e : Endpoint} {r : TokenRequest} {w : World} {replies : Nat → Reply}

theorem course_exchange {G : Reply → Prop} (hr : r.grantType = "authorization_code")
    (hreplies : ∀ n, G (replies n)) : ∃ w₁ : World, w₁.store = w.store ∧
      ((∀ reply, G reply → reply.keyFailure = none) → w₁.ring.Signs) ∧
      Course G e r w₁ (World.complete (e.exchange r) w replies).1
        (World.complete (e.exchange r) w replies).2 (World.calls (e.exchange r) w replies) :=
  (ensures_exchange ⟨_, hreplies 0⟩ hr).complete hreplies

theorem verdict_of_signs {now now' : Instant} {s : Store} {ring ring' : KeyRing}
    (h : ring.Signs) (h' : ring'.Signs) :
    verdict e r now now' s ring = verdict e r now now' s ring' := by
  unfold verdict Issuance.verdict
  simp only [h.mint_verdict h']

/-- At an instant at which everything works, an exchange ends as is settled beforehand. -/
theorem kind_exchange {now : Timestamp} (hr : r.grantType = "authorization_code")
    (hreplies : ∀ n, (replies n).Works now)
    (hfresh : w.store.Fresh (World.calls (e.exchange r) w replies)) :
    ∃ ring : KeyRing, ring.Signs ∧
      (World.complete (e.exchange r) w replies).1.kind = verdict e r now now w.store ring := by
  have hG : ¬ Fallible fun reply => reply.Works now := fun ⟨reply, d, hworks, hd⟩ =>
    not_fallible_healthy ⟨reply, d, hworks.store, hd⟩
  obtain ⟨w₁, hstore, hsigns, hcourse⟩ :=
    course_exchange (G := fun reply => reply.Works now) (w := w) (e := e) hr hreplies
  refine ⟨w₁.ring, hsigns fun _ h => h.keys, ?_⟩
  rw [← hstore] at hfresh ⊢
  generalize World.calls (e.exchange r) w replies = past at hcourse hfresh
  generalize (World.complete (e.exchange r) w replies).1 = o at hcourse ⊢
  cases hcourse with
  | settled hnow hnow' hkind =>
    obtain ⟨reply, hreply, rfl⟩ := hnow
    obtain ⟨reply', hreply', rfl⟩ := hnow'
    rw [hkind, hreply.clock, hreply'.clock]
  | kept hG' => exact absurd hG' hG
  | spent _ _ _ _ hcause => exact (hcause.elim hG (absurd hfresh)).elim

/-- A code that was used is good for nothing. -/
theorem exchange_of_used {q : Redemption} (hr : r.grantType = "authorization_code")
    (hq : redemption r = .ok q) {c : AuthorizationCode} (hc : w.store.code? q.code = some c)
    (hused : c.used = true) (hreplies : ∀ n, (replies n).healthy) :
    ∃ m, (World.complete (e.exchange r) w replies).1 = .error (.invalidGrant m) := by
  obtain ⟨w₁, hstore, -, hcourse⟩ :=
    course_exchange (G := fun reply => reply.healthy) (w := w) (e := e) hr hreplies
  rw [← hstore] at hc
  have hchecked := fun now => checked_of_used e.codePolicy now hc hused
  generalize (World.complete (e.exchange r) w replies).1 = o at hcourse ⊢
  cases hcourse with
  | settled _ _ hkind =>
    simp only [verdict, hq, hchecked] at hkind
    exact ⟨_, Outcome.kind_eq_error.1 hkind⟩
  | kept hG => exact absurd hG not_fallible_healthy
  | spent hq' hc' =>
    cases hq.symm.trans hq'
    cases (hchecked _).symm.trans hc'

end Retries

end Endpoint

open Endpoint

/-- An exchange of a code that fails with an error of the server has done one of two things. Either
nothing has changed and it can be tried again, to end as it would have at first. Or the code was
marked before the client could not be looked up or the record not be stored. Then the code is lost:
each later attempt is refused. -/
theorem failed_code_exchange {e : Endpoint} {r : TokenRequest}
    (hr : r.grantType = "authorization_code") {w w' : World} {err : TokenError}
    {replies : Nat → Reply} (ho : World.complete (e.exchange r) w replies = (.error err, w'))
    (hretry : err.retryable) :
    (w'.store = w.store ∧ ∀ (now : Timestamp) (first later : Nat → Reply),
      (∀ n, (first n).Works now) → (∀ n, (later n).Works now) →
      w.store.Fresh (World.calls (e.exchange r) w first) →
      w'.store.Fresh (World.calls (e.exchange r) w' later) →
      (World.complete (e.exchange r) w' later).1.kind =
        (World.complete (e.exchange r) w first).1.kind) ∨
    ∃ v c, r.code = some v ∧ w.store.code? v = some c ∧ c.used = false ∧
      w'.store = (w.store.markCodeUsed v).2 ∧
      Issuance.Broken (World.calls (e.exchange r) w replies) ∧
      ∀ (threads : List Thread) (later : List Move) (e' : Endpoint) (replies' : Nat → Reply),
        (∀ n, (replies' n).healthy) → ∃ m, (World.complete (e'.exchange r)
          ((System.mk w' threads).run later).world replies').1 = .error (.invalidGrant m) := by
  obtain ⟨w₁, hstore, -, hcourse⟩ :=
    course_exchange (G := fun _ => True) (w := w) (e := e) hr (fun n => trivial : ∀ n, _ )
  rw [ho] at hcourse
  generalize World.calls (e.exchange r) w replies = past at hcourse ⊢
  cases hcourse with
  | settled _ _ _ hfinal => exact absurd (hretry.symm.trans (hfinal _ rfl)) nofun
  | kept hG hw =>
    -- The attempts find the same store; a rotation before them changes at most the key.
    have hsame : w'.store = w.store := hw.store.trans hstore
    refine .inl ⟨hsame, fun now first later hfirst hlater hfresh hfresh' => ?_⟩
    obtain ⟨ring, hring, hkind⟩ := kind_exchange hr hfirst hfresh
    obtain ⟨ring', hring', hkind'⟩ := kind_exchange hr hlater hfresh'
    rw [hkind, hkind', hsame, verdict_of_signs hring hring']
  | @spent _ q c now _ _ hq hc hw hbroken =>
    obtain ⟨c, hcode, hunused, hmarked⟩ := Store.markCodeUsed_of_fst (markCodeUsed_of_checked hc)
    rw [← hw.store] at hmarked
    have hv := redemption_spec r
    rw [hq] at hv
    refine .inr ⟨q.code, c, hv, hstore ▸ hcode, hunused, hstore ▸ hw.store,
      hbroken, fun threads later e' replies' hreplies' => ?_⟩
    obtain ⟨u, hlater, hused⟩ := System.keepsCodes_run later ⟨w', threads⟩ _ _ hmarked
    exact exchange_of_used hr hq hlater (hused rfl) hreplies'

namespace Sample

/-- A world in which a code has been issued. -/
def consented : World := ((System.start world).run (.start consent :: steps 0 1 20)).world

def endpoint : Endpoint := ⟨codePolicy, policy, .ofIssuer policy.issuer .es256 false⟩

def codeRequest : TokenRequest :=
  ⟨"authorization_code", some (code 1), some "https://a/cb", some "c1", some verifier, none, none⟩

/-- The store cannot be reached, and later can. -/
def unreached : World :=
  (World.complete (endpoint.exchange codeRequest) consented (failingFrom 0 2)).2

/-- The code has been marked when the store breaks down. -/
def halfway : World :=
  (World.complete (endpoint.exchange codeRequest) consented (failingFrom 8 2)).2

end Sample

theorem failed_code_exchange_unreached : Sample.unreached.store = Sample.consented.store ∧
    (World.complete (Sample.endpoint.exchange Sample.codeRequest) Sample.unreached
      fun _ => Sample.reply 3).1.kind = .ok () := by
  have ho : World.complete (Sample.endpoint.exchange Sample.codeRequest) Sample.consented
      (Sample.failingFrom 0 2) = (.error (.ofStore (.unavailable "down")), Sample.unreached) :=
    World.complete_eq (by decide +kernel)
  obtain ⟨hunmarked, hfirst, hlater, hkind⟩ :
      (Sample.unreached.store.code? (Sample.code 1)).map (·.used) ≠
        ((Sample.consented.store.markCodeUsed (Sample.code 1)).2.code? (Sample.code 1)).map
          (·.used) ∧
      Sample.consented.store.Fresh (World.calls (Sample.endpoint.exchange Sample.codeRequest)
        Sample.consented fun _ => Sample.reply 2) ∧
      Sample.unreached.store.Fresh (World.calls (Sample.endpoint.exchange Sample.codeRequest)
        Sample.unreached fun _ => Sample.reply 3) ∧
      (World.complete (Sample.endpoint.exchange Sample.codeRequest) Sample.consented
        fun _ => Sample.reply 2).1.kind = .ok () := by
    decide +kernel
  have hworks : ∀ byte, (Sample.reply byte).Works ⟨0⟩ := fun _ => ⟨rfl, rfl, rfl⟩
  rcases failed_code_exchange rfl ho rfl with ⟨hstore, hretry⟩ | ⟨v, c, hv, -, -, hmarked, -⟩
  · refine ⟨hstore, ?_⟩
    rw [hretry ⟨0⟩ _ _ (fun _ => hworks 2) (fun _ => hworks 3) hfirst hlater]
    exact hkind
  · cases hv
    exact absurd (hmarked ▸ rfl) hunmarked

/-- The tokens of a code could not be stored. The error says that the request may be made again, but
then the code has been used. -/
theorem code_lost_halfway :
    (World.complete (Sample.endpoint.exchange Sample.codeRequest) Sample.consented
      fun _ => Sample.reply 2).1.kind = .ok () ∧
    (∃ err, (World.complete (Sample.endpoint.exchange Sample.codeRequest) Sample.consented
      (Sample.failingFrom 8 2)).1 = .error err ∧ err.retryable) ∧
    (Sample.consented.store.code? (Sample.code 1)).map (·.used) = some false ∧
    (Sample.halfway.store.code? (Sample.code 1)).map (·.used) = some true ∧
    (World.complete (Sample.endpoint.exchange Sample.codeRequest) Sample.halfway
      fun _ => Sample.reply 3).1 = .error (.invalidGrant "authorization code already used") := by
  have herror : (World.complete (Sample.endpoint.exchange Sample.codeRequest) Sample.consented
      (Sample.failingFrom 8 2)).1 = .error (.ofStore (.unavailable "down")) := by decide +kernel
  refine ⟨by decide +kernel, ⟨_, herror, rfl⟩, ?_⟩
  decide +kernel

end TokenAuthority

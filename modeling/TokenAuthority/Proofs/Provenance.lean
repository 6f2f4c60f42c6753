import TokenAuthority.Proofs.Code.Retry
import TokenAuthority.Proofs.Moments

/-!
# Where tokens come from

Whatever an authority is asked and in whatever order, tokens that it gives out for a code or a
refresh token go back to one request for a code: through the records to one without a parent, which
was stored for a code, which was created for that request (`System.TracesTo`). They tell of what was
asked for then, and of nothing else, and the client was registered for it at that moment
(`tokens_trace_to_consent`).
-/

namespace TokenAuthority

open Operation StoreEvent Time
open Relation (ReflTransGen)

/-- The claims that a request for a code allows. -/
structure Claims.Confined (c : Claims) (q : CodeRequest) (issuer nonce : String) : Prop where
  iss : c.iss = issuer
  sub : c.sub = q.userId
  aud : c.aud = [q.clientId]
  clientId : c.clientId = q.clientId
  scope : c.scope = (ScopeSet.parse q.scope).display
  nonce : c.nonce = nonce

/-- An answer to a token request, perhaps with an ID token, tells of a request for a code. -/
structure TokenResponse.Confined (t : TokenResponse) (q : CodeRequest) (issuer nonce : String)
    (bound : Bool) : Prop where
  scope : t.scope = (ScopeSet.parse q.scope).display
  access : ∃ c, Jws.claims? .access t.accessToken = some c ∧ c.Confined q issuer nonce
  idToken : if bound then
      ∃ text c, t.idToken = some text ∧
        Jws.claims? .idToken text = some ⟨c, some (atHash t.accessToken)⟩ ∧
        c.Confined q issuer nonce
    else t.idToken = none

namespace System

/-- A request got a code, or is about to. -/
def Consents (s : System) (i : Nat) (q : CodeRequest) (v : String) : Prop :=
  ∃ p now past rest c, s.threads[i]? = some ⟨.issueCode q p now, past, rest⟩ ∧
    created c ∈ past.filterMap Event.store? ∧ c.code = v ∧ ∀ o, rest = .done o → o = .ok v

/-- A record was stored for a code. -/
def Roots (s : System) (v : String) (r : TokenRecord) : Prop :=
  r.parent = none ∧ ∃ t ∈ s.threads, t.request.code? = some v ∧ stored r ∈ t.calls

/-- A record descends from one that was stored for the code of a request. -/
def TracesTo (s : System) (x : String) (i : Nat) (q : CodeRequest) : Prop :=
  ∃ v root, s.Consents i q v ∧ s.Roots v root ∧ s.world.store.Descends x root.refreshId

inductive Answered (s : System) (e : Endpoint) (r : TokenRequest) (t : TokenResponse) : Prop
  | exchange {past : List Event} (h : ⟨.exchange e r, past, .done (.ok t)⟩ ∈ s.threads)
  | token {past : List Event} (h : ⟨.token e r, past, .done (.ok (.ok t))⟩ ∈ s.threads)

/-- When a request for a code looked up its client, this was registered for all that was asked
for. -/
def Registered (w : World) (moves : List Move) (i : Nat) (q : CodeRequest) : Prop :=
  ∃ before reply after p now client, moves = before ++ .step i reply :: after ∧
    ((start w).run before).Makes i (.issueCode q p now) (.store (.getClient q.clientId)) ∧
    ((start w).run before).world.store.client? q.clientId = some client ∧
    (client.scopes = [] ∨ ∀ scope ∈ (ScopeSet.parse q.scope).scopes, scope ∈ client.scopes)

end System

namespace StoreEvent

variable {e : StoreEvent}

theorem created_of_key? {v : String} (h : e.key? = some (.code v)) :
    ∃ c, e = created c ∧ c.code = v := by
  unfold key? at h
  split at h <;> cases h
  exact ⟨_, rfl, rfl⟩

theorem stored_of_key? {x : String} (h : e.key? = some (.record x)) :
    ∃ r, e = stored r ∧ r.refreshId = x := by
  unfold key? at h
  split at h <;> cases h
  exact ⟨_, rfl, rfl⟩

end StoreEvent

theorem Codes.scopes_registered {p : CodePolicy} {client : Client} {q : CodeRequest}
    {t : ScopeSet × Option PkceMethod} (h : accept p client q = .ok t) :
    client.scopes = [] ∨ ∀ scope ∈ (ScopeSet.parse q.scope).scopes, scope ∈ client.scopes := by
  unfold accept at h
  dsimp only at h
  split_ifs at h with _ _ hscopes
  simpa [Client.allowsScopes, ScopeSet.isSubsetOf, or_iff_not_imp_left] using hscopes

/-- Ancestors without parents are the same. -/
theorem Store.eq_of_descends {s : Store} {x y z : String} (hy : s.Descends x y)
    (hz : s.Descends x z) (hy' : s.parent? y = none) (hz' : s.parent? z = none) : y = z := by
  have hunique : Relator.RightUnique fun a p => s.parent? a = some p :=
    fun _ _ _ h h' => Option.some.inj (h.symm.trans h')
  have hend : ∀ {a b}, s.parent? a = none → s.Descends a b → a = b := by
    intro a b ha hab
    rcases hab.cases_head with rfl | ⟨p, hp, -⟩
    · rfl
    · cases ha.symm.trans hp
  rcases ReflTransGen.total_of_right_unique hunique hy hz with hyz | hzy
  · exact hend hy' hyz
  · exact (hend hz' hzy).symm

namespace System

open Codes

section Run

variable {w : World} {moves : List Move} {t : Thread}

theorem parent?_of_stored (ht : t ∈ ((start w).run moves).threads) {r : TokenRecord}
    (hr : stored r ∈ t.calls) :
    ((start w).run moves).world.store.parent? r.refreshId = r.parent := by
  obtain ⟨r', hr', hgrows⟩ := History.shows_of_mem ht hr
  rw [Store.parent?, hr', Option.bind_some, hgrows.parent]

theorem TracesTo.unique {x : String} {i j : Nat} {q q' : CodeRequest}
    (h : ((start w).run moves).TracesTo x i q) (h' : ((start w).run moves).TracesTo x j q') :
    i = j ∧ q = q' := by
  obtain ⟨v, root, ⟨p, now, past, rest, c, hi, hc, rfl, -⟩, ⟨hnone, t, ht, hv, hroot⟩, hx⟩ := h
  obtain ⟨v', root', ⟨p', now', past', rest', c', hj, hc', rfl, -⟩, ⟨hnone', t', ht', hv', hroot'⟩,
    hx'⟩ := h'
  -- There is one root, which one request stored, for one code, which one request had created.
  have hkey : root.refreshId = root'.refreshId := Store.eq_of_descends hx hx'
    ((parent?_of_stored ht hroot).trans hnone) ((parent?_of_stored ht' hroot').trans hnone')
  obtain ⟨k, hk⟩ := List.mem_iff_getElem?.1 ht
  obtain ⟨k', hk'⟩ := List.mem_iff_getElem?.1 ht'
  obtain rfl : k = k' := History.eq_of_key? hk hk' hroot hroot' rfl (hkey ▸ rfl)
  obtain rfl : t = t' := Option.some.inj (hk.symm.trans hk')
  have hcode : c.code = c'.code := Option.some.inj (hv.symm.trans hv')
  obtain rfl : i = j := History.eq_of_key? hi hj hc hc' rfl (hcode ▸ rfl)
  cases hi.symm.trans hj
  exact ⟨rfl, rfl⟩

theorem mem_past_of_mem_calls {c : StoreCall} {a : Except StoreError c.Result}
    (h : ⟨c, a⟩ ∈ t.calls) : ⟨.store c, a⟩ ∈ t.past := by
  obtain ⟨⟨c', a'⟩, he, hstore⟩ := List.mem_filterMap.1 h
  cases c' with
  | store => cases hstore; exact he
  | _ => cases hstore

/-- A client that a request has found was registered at that moment. -/
theorem registered_of_found {i : Nat} {q : CodeRequest} {p : CodePolicy} {now : Instant}
    (hi : ((start w).run moves).threads[i]? = some t) (hrequest : t.request = .issueCode q p now)
    {client : Client} (hfound : foundClient client ∈ t.calls) (hid : client.clientId = q.clientId)
    (hscopes : client.scopes = [] ∨
      ∀ scope ∈ (ScopeSet.parse q.scope).scopes, scope ∈ client.scopes) :
    Registered w moves i q := by
  obtain ⟨before, reply, after, hmoves, hmakes, hanswer⟩ :=
    exists_moment hi (mem_past_of_mem_calls hfound)
  refine ⟨before, reply, after, p, now, client, hmoves, hrequest ▸ hid ▸ hmakes, ?_, hscopes⟩
  unfold World.perform at hanswer
  dsimp only at hanswer
  rcases hfail : reply.storeFailure with _ | d <;> rw [hfail] at hanswer
  · rw [← hid]
    exact (Except.ok.inj hanswer).symm
  · cases hanswer

section Accounts

variable (hcodes : w.store.codes = []) (hrecords : w.store.records = [])

include hcodes hrecords

theorem exists_maker {k : Key} (h : ((start w).run moves).world.store.Has k) :
    ∃ (i : Nat) (u : Thread) (e : StoreEvent), ((start w).run moves).threads[i]? = some u ∧
      e ∈ u.calls ∧ e.key? = some k := by
  obtain ⟨φ, hφ, e, he, hk⟩ := (History.accounted_run hcodes hrecords moves).1 k h
  obtain ⟨u, hu, rfl⟩ := List.mem_map.1 hφ
  rw [History.phase_eq] at he
  obtain ⟨i, hi⟩ := List.mem_iff_getElem?.1 hu
  exact ⟨i, u, e, hi, he, hk⟩

/-- A code that was found is what a request has asked for. -/
theorem exists_consent (ht : t ∈ ((start w).run moves).threads) {c : AuthorizationCode}
    (hfound : foundCode c ∈ t.calls) :
    ∃ i q, ((start w).run moves).Consents i q c.code ∧ Registered w moves i q ∧
      c.clientId = q.clientId ∧ Consented q c := by
  obtain ⟨used, hstored⟩ := History.shows_of_mem ht hfound
  obtain ⟨i, u, e, hi, he, hk⟩ := exists_maker hcodes hrecords (k := .code c.code) ⟨_, hstored⟩
  obtain ⟨c₀, rfl, hcode⟩ := created_of_key? hk
  obtain ⟨used₀, hstored₀⟩ := History.shows_of_mem (List.mem_of_getElem? hi) he
  -- What was created and what was found are in the store under one code.
  have hsame : { c with used } = { c₀ with used := used₀ } :=
    Option.some.inj (hstored.symm.trans (hcode ▸ hstored₀))
  have hlaw := History.regime.lawful_of_start w moves u (List.mem_of_getElem? hi)
  obtain ⟨q, p, now, client, hrequest, hclient, hid, hissued⟩ := History.permits_of_mem hlaw he
  have hregistered :=
    registered_of_found hi hrequest hclient hid (scopes_registered hissued.accepted)
  have hscopes := congrArg ScopeSet.scopes (scopes_of_accept hissued.accepted).1
  obtain ⟨request, past, rest⟩ := u
  obtain rfl : request = .issueCode q p now := hrequest
  refine ⟨i, q, ⟨p, now, past, rest, c₀, hi, he, hcode, ?_⟩, hregistered, ?_, ?_, ?_, ?_⟩
  · rintro o rfl
    rw [← hcode]
    refine (hlaw.fits rfl).2 c₀ ?_
    rwa [History.phase_eq]
  · exact (congrArg AuthorizationCode.clientId hsame).trans hissued.clientId
  · exact (congrArg AuthorizationCode.userId hsame).trans hissued.userId
  · exact (congrArg AuthorizationCode.scopes hsame).trans hscopes
  · exact (congrArg AuthorizationCode.nonce hsame).trans hissued.nonce

/-- A record that was stored for a code tells of the request for the code. -/
theorem exists_root (ht : t ∈ ((start w).run moves).threads) {c : AuthorizationCode}
    (hfound : foundCode c ∈ t.calls) {root : TokenRecord} (hstored : stored root ∈ t.calls)
    (hgrants : c.Grants root) :
    ∃ i q, ((start w).run moves).TracesTo root.refreshId i q ∧ Registered w moves i q ∧
      root.grant = (q.clientId, some q.userId, (ScopeSet.parse q.scope).display) ∧
      Consented q c := by
  obtain ⟨i, q, hconsents, hregistered, hclient, hconsented⟩ :=
    exists_consent hcodes hrecords ht hfound
  have hlaw := History.regime.lawful_of_start w moves t ht
  have hroots : ((start w).run moves).Roots c.code root :=
    ⟨hgrants.parent, t, ht, History.permits_of_mem hlaw hfound, hstored⟩
  refine ⟨i, q, ⟨c.code, root, hconsents, hroots, .refl⟩, hregistered, ?_, hconsented⟩
  rw [TokenRecord.grant, hgrants.clientId, hgrants.userId, hgrants.scope, hclient,
    hconsented.userId, hconsented.scopes]
  rfl

/-- If tokens are issued for codes only, every record tells of the request for a code that it goes
back to. -/
theorem exists_trace (hmoves : ∀ r p now, .start (.issue r p now) ∉ moves) {x : String}
    {r : TokenRecord} (hr : ((start w).run moves).world.store.record? x = some r) :
    ∃ i q, ((start w).run moves).TracesTo x i q ∧ Registered w moves i q ∧
      r.grant = (q.clientId, some q.userId, (ScopeSet.parse q.scope).display) := by
  obtain ⟨y, root, hdescends, hroot, hnone, hgrant⟩ :=
    (History.accounted_run hcodes hrecords moves).2 x r hr
  obtain ⟨k, u, e, hk, he, hkey⟩ := exists_maker hcodes hrecords (k := .record y) ⟨root, hroot⟩
  obtain ⟨root₀, rfl, rfl⟩ := stored_of_key? hkey
  have hu := List.mem_of_getElem? hk
  obtain ⟨root', hroot', hgrows⟩ := History.shows_of_mem hu he
  obtain rfl : root = root' := Option.some.inj (hroot.symm.trans hroot')
  have hlaw := History.regime.lawful_of_start w moves u hu
  cases (show History.Origin u.request u.calls root₀ from History.permits_of_mem hlaw he) with
  | issue hq => exact absurd (hq ▸ start_mem hu) (hmoves _ _ _)
  | refresh _ hcontinues =>
    cases hcontinues.parent.symm.trans (hgrows.parent.symm.trans hnone)
  | code hfound _ hgrants =>
    obtain ⟨i, q, ⟨v, top, hconsents, hroots, htop⟩, hregistered, hgrant₀, -⟩ :=
      exists_root hcodes hrecords hu hfound he hgrants
    refine ⟨i, q, ⟨v, top, hconsents, hroots, hdescends.trans htop⟩, hregistered, ?_⟩
    exact hgrant.trans (hgrows.grant.trans hgrant₀)

end Accounts

theorem Answered.granted {e : Endpoint} {r : TokenRequest} {t : TokenResponse}
    (h : ((start w).run moves).Answered e r t) :
    ∃ u ∈ ((start w).run moves).threads, History.Granted e r u.calls t := by
  have hlaw := History.regime.lawful_of_start w moves
  cases h with
  | exchange hu =>
    have hfits : History.Granted e r _ t := (hlaw _ hu).fits rfl
    rw [History.phase_eq] at hfits
    exact ⟨_, hu, hfits⟩
  | token hu =>
    have hfits : History.Granted e r _ t := (hlaw _ hu).fits rfl t rfl
    rw [History.phase_eq] at hfits
    exact ⟨_, hu, hfits⟩

end Run

end System

section Tells

variable {q : CodeRequest} {r : TokenRecord} {issuer nonce : String}
  (hgrant : r.grant = (q.clientId, some q.userId, (ScopeSet.parse q.scope).display))

include hgrant

theorem Claims.Tells.confined {c : Claims} (h : c.Tells issuer nonce r) :
    c.Confined q issuer nonce := by
  obtain ⟨hclient, huser, hscope⟩ : r.clientId = q.clientId ∧ r.userId = some q.userId ∧
      r.scope = (ScopeSet.parse q.scope).display := by
    simpa [TokenRecord.grant] using hgrant
  refine ⟨h.iss, ?_, ?_, ?_, ?_, h.nonce⟩
  · rw [h.sub, TokenRecord.subject, huser, Option.getD_some]
  · rw [h.aud, hclient]
  · rw [h.clientId, hclient]
  · rw [h.scope, hscope]

theorem TokenResponse.Tells.confined {t : TokenResponse} {bound : Bool}
    (h : t.Tells issuer nonce bound r) : t.Confined q issuer nonce bound := by
  have hscope : r.scope = (ScopeSet.parse q.scope).display := congrArg (·.2.2) hgrant
  obtain ⟨c, hc, htells⟩ := h.access
  refine ⟨h.scope.trans hscope, ⟨c, hc, htells.confined hgrant⟩, ?_⟩
  have hid := h.idToken
  split_ifs at hid ⊢
  · obtain ⟨text, c, htext, hc, htells⟩ := hid
    exact ⟨text, c, htext, hc, htells.confined hgrant⟩
  · exact hid

end Tells

theorem getD_filled? : ∀ o : Option String, (filled? o).getD "" = o.getD ""
  | none => rfl
  | some text => by
    unfold filled?
    by_cases h : text = ""
    · rw [h]
      rfl
    · rw [Option.filter_some_pos (by simpa using h)]

/-- Tokens that were given out for a code or a refresh token go back to exactly one request for a
code. They tell of what was asked for then, and the client was registered for it. -/
theorem tokens_trace_to_consent {w : World} (hcodes : w.store.codes = [])
    (hrecords : w.store.records = []) {moves : List Move}
    (hmoves : ∀ r p now, .start (.issue r p now) ∉ moves) {e : Endpoint} {r : TokenRequest}
    {t : TokenResponse} (h : ((System.start w).run moves).Answered e r t) :
    ∃ i q, ((System.start w).run moves).TracesTo (Pkce.digest t.refreshToken) i q ∧
      (∀ j q', ((System.start w).run moves).TracesTo (Pkce.digest t.refreshToken) j q' →
        j = i ∧ q' = q) ∧
      System.Registered w moves i q ∧ r.clientId = some q.clientId ∧
      (r.grantType = "authorization_code" ∧
          t.Confined q e.tokenPolicy.issuer (q.nonce.getD "") true ∨
        r.grantType = "refresh_token" ∧ t.Confined q e.tokenPolicy.issuer "" false) := by
  obtain ⟨u, hu, hgranted⟩ := h.granted
  cases hgranted with
  | @code c rec htype hfound hstored hclient hgrants htells =>
    obtain ⟨i, q, htrace, hregistered, hgrant, hconsented⟩ :=
      System.exists_root hcodes hrecords hu hfound hstored hgrants
    rw [htells.refreshId] at htrace
    refine ⟨i, q, htrace, fun j q' h' => h'.unique htrace, hregistered, ?_, .inl ⟨htype, ?_⟩⟩
    · rw [hclient]
      exact congrArg (some ·.1) hgrant
    · rw [← getD_filled?, ← hconsented.nonce]
      exact htells.confined hgrant
  | @refresh parent rec htype hfound hstored hclient hcontinues htells =>
    obtain ⟨rec', hrec, hgrows⟩ := History.shows_of_mem hu hstored
    obtain ⟨i, q, htrace, hregistered, hgrant⟩ :=
      System.exists_trace hcodes hrecords hmoves hrec
    rw [hgrows.grant] at hgrant
    rw [htells.refreshId] at htrace
    refine ⟨i, q, htrace, fun j q' h' => h'.unique htrace, hregistered, ?_, .inr ⟨htype, ?_⟩⟩
    · rw [hclient]
      exact congrArg (some ·.1) hgrant
    · exact htells.confined hgrant

theorem System.exists_answered {s : System} {i : Nat} {e : Endpoint} {r : TokenRequest}
    (hrequest : (s.threads.map Thread.request)[i]? = some (.exchange e r))
    (hends : (s.threads.map Thread.succeeded)[i]? = some true) : ∃ t, s.Answered e r t := by
  rw [List.getElem?_map, Option.map_eq_some_iff] at hrequest hends
  obtain ⟨u, hu, hrequest⟩ := hrequest
  obtain ⟨u', hu', hends⟩ := hends
  obtain rfl : u = u' := Option.some.inj (hu.symm.trans hu')
  obtain ⟨request, past, rest⟩ := u
  obtain rfl : request = .exchange e r := hrequest
  rcases rest with (t | e' | _) | ⟨c, next⟩
  · exact ⟨t, .exchange (List.mem_of_getElem? hu)⟩
  all_goals cases hends

namespace Sample

def renewal : TokenRequest :=
  ⟨"refresh_token", none, none, some "c1", none, some (refreshToken 2), none⟩

/-- A code is issued and exchanged, and then the refresh token that came with it. -/
def renewals : List Move :=
  .start consent :: steps 0 1 20 ++ .start (grant 1) :: steps 1 2 20 ++
    .start (.exchange endpoint renewal) :: steps 2 3 20

end Sample

theorem tokens_trace_to_consent_renewal :
    ∃ t q, ((System.start Sample.world).run Sample.renewals).Answered Sample.endpoint
        Sample.renewal t ∧
      ((System.start Sample.world).run Sample.renewals).TracesTo (Pkce.digest t.refreshToken) 0 q ∧
      q.userId = "u1" ∧ t.Confined q "https://issuer.example.com" "" false := by
  have hends : ((System.start Sample.world).run Sample.renewals).threads.map Thread.succeeded =
      [true, true, true] := by decide +kernel
  have hrequests : ((System.start Sample.world).run Sample.renewals).threads.map Thread.request =
      [Sample.consent, Sample.grant 1, .exchange Sample.endpoint Sample.renewal] :=
    System.requests_run Sample.renewals (System.start Sample.world)
  have hmoves : ∀ r p now, .start (.issue r p now) ∉ Sample.renewals := by
    intro r p now hm
    have hstarted : Request.issue r p now ∈ Sample.renewals.filterMap Move.request? :=
      List.mem_filterMap.2 ⟨_, hm, rfl⟩
    change _ ∈ [Sample.consent, Sample.grant 1, .exchange Sample.endpoint Sample.renewal]
      at hstarted
    simp [Sample.consent, Sample.grant] at hstarted
  obtain ⟨t, ht⟩ : ∃ t, ((System.start Sample.world).run Sample.renewals).Answered
      Sample.endpoint Sample.renewal t := by
    refine System.exists_answered (i := 2) ?_ ?_
    · rw [hrequests]
      rfl
    · rw [hends]
      rfl
  obtain ⟨i, q, htrace, -, -, -, ⟨htype, -⟩ | ⟨-, hconfined⟩⟩ :=
    tokens_trace_to_consent (w := Sample.world) rfl rfl hmoves ht
  · exact absurd htype (by decide)
  have ⟨v, root, ⟨p, now, past, rest, c, hi, _⟩, _⟩ := htrace
  have hrequest : [Sample.consent, Sample.grant 1, .exchange Sample.endpoint Sample.renewal][i]? =
      some (.issueCode q p now) := by
    rw [← hrequests, List.getElem?_map, hi]
    rfl
  rcases i with _ | _ | _ | i
  · cases hrequest
    exact ⟨t, _, ht, htrace, rfl, hconfined⟩
  all_goals cases hrequest

end TokenAuthority

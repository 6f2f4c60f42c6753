import TokenAuthority.Proofs.Token.Freshness
import TokenAuthority.Proofs.Token.Signatures

/-!
# The kinds of tokens

Nothing in a token says whether it was signed as an access token or as an ID token, and fields that
are not known are passed over. So an ID token is inspected as an access token just as it is as what
it is (`Jws.inspect_access`), and with it one learns of its user (`Jws.passesAsAccess`). Nothing
else acts as an access token: header and payload of what is accepted were signed in the run, as one
or the other (`System.signed_of_userinfo`), unless they are forged.
-/

namespace TokenAuthority

open Encoding Json

namespace Jws

section Inspect

variable {ring : KeyRing} {second : Int} {token : String}

/-- Types of claims that a payload fits alike are told apart by nothing else. -/
theorem inspect_map {type type' : ClaimType} {g : type.Carrier → type'.Carrier} {s : Segments}
    {c : type.Carrier} (hstandard : type'.standard (g c) = type.standard c)
    (hs : Segments.ofText? token = some s)
    (hc : readSegment (claimsOfBytes? type.reading) s.payload = .ok c)
    (hc' : readSegment (claimsOfBytes? type'.reading) s.payload = .ok (g c)) :
    inspect type' ring second token = (inspect type ring second token).map g := by
  unfold inspect
  rw [hs]
  dsimp only [Except.mapError, bind, Except.bind]
  rw [hc, hc']
  rcases readSegment Header.ofBytes? s.header with e | ⟨algorithm, _ | kid⟩
  · rfl
  · rfl
  dsimp only
  rcases ring.find? kid with _ | key
  · rfl
  dsimp only
  split_ifs
  · rfl
  rcases ofBase64Url? s.signature with _ | signature
  · rfl
  dsimp only
  split_ifs
  · rfl
  rw [hstandard]
  rcases checkExpiry second (type.standard c) with e | ⟨⟩ <;> rfl

theorem readClaims_access {v : Json} {c : IdClaims} (h : readClaims IdClaims.ofJson v = .ok c) :
    readClaims Claims.ofJson v = .ok c.claims := by
  unfold readClaims at h ⊢
  split at h
  · split_ifs at h ⊢
    obtain ⟨_, _, hmk, -, rfl⟩ := reads_seq_iff.1 (reads_of_readObject h)
    obtain ⟨claims, hclaims, rfl⟩ := reads_map_iff.1 hmk
    exact readObject_of_reads hclaims
  · cases h

theorem toOption_eq_some {ε α : Type} {x : Except ε α} {a : α} :
    x.toOption = some a ↔ x = .ok a := by
  cases x <;> simp [Except.toOption]

theorem readSegment_access {segment : String} {c : IdClaims}
    (h : readSegment (claimsOfBytes? IdClaims.ofJson) segment = .ok c) :
    readSegment (claimsOfBytes? Claims.ofJson) segment = .ok c.claims := by
  obtain ⟨bytes, hbytes, h⟩ := readSegment_eq_ok h
  obtain ⟨v, hv, hread⟩ := Option.bind_eq_some_iff.1 h
  have hclaims := toOption_eq_some.2 (readClaims_access (toOption_eq_some.1 hread))
  simp [readSegment, hbytes, claimsOfBytes?, hv, hclaims]

/-- The claims of a token that is accepted are those that it carries. -/
theorem claims?_of_inspect {type : ClaimType} {c : type.Carrier}
    (h : inspect type ring second token = .ok c) : claims? type token = some c := by
  obtain ⟨s, key, hv⟩ := vouched_of_inspect h
  exact Option.bind_eq_some_iff.2 ⟨s, hv.ofText?, toOption_eq_some.2 hv.payload⟩

/-- A token that carries the claims of an ID token is inspected alike as either. -/
theorem inspect_access {c : IdClaims} (h : claims? .idToken token = some c) :
    inspect .access ring second token =
      (inspect .idToken ring second token).map IdClaims.claims := by
  obtain ⟨s, hs, hread⟩ := Option.bind_eq_some_iff.1 h
  have hid := toOption_eq_some.1 hread
  exact @inspect_map _ _ _ .idToken .access IdClaims.claims s c rfl hs hid (readSegment_access hid)

end Inspect

end Jws

/-- A text with the claims of an ID token is taken for an access token just as it is for an ID
token, whatever the world and the time. -/
def Jws.PassesAsAccess (text : String) (c : IdClaims) : Prop :=
  ∀ (w : World) (replies : Nat → Reply),
    World.complete (Signing.verify .idToken text) w replies = (.ok c, w) ∧
      World.complete (Signing.verify .access text) w replies = (.ok c.claims, w) ∧
      ((replies 2).healthy → World.complete (Endpoint.userinfo text) w replies =
        ((w.store.user? c.claims.sub).elim (.error (.invalidToken "unknown subject"))
          fun user => .ok (.ofUser user), w)) ∨
    ∃ m, World.complete (Signing.verify .idToken text) w replies = (.error (.invalidToken m), w) ∧
      World.complete (Signing.verify .access text) w replies = (.error (.invalidToken m), w) ∧
      ((replies 2).healthy → World.complete (Endpoint.userinfo text) w replies =
        (.error (.invalidToken m), w))

/-- What one learns of the user behind a token that is valid. -/
def Endpoint.describe (user? : Option User) : Operation UserInfo :=
  user?.elim (Operation.fail (.invalidToken "unknown subject")) fun user => pure (.ofUser user)

theorem Endpoint.userinfo_eq (token : String) : Endpoint.userinfo token =
    Signing.verify .access token >>= fun c => Operation.ofStore (.getUser c.sub) >>= describe := by
  unfold Endpoint.userinfo
  congr! 4 with c user?
  cases user? <;> rfl

namespace World

variable {w : World} {replies : Nat → Reply}

theorem run_ofStore {α : Type} {c : StoreCall} {a : c.Result} {w' : World}
    {f : c.Result → Operation α} (h : w.perform (replies 0) (.store c) = (.ok a, w')) :
    (Operation.ofStore c >>= f).run answer (w, replies) =
      (f a).run answer (w', fun n => replies (n + 1)) := by
  unfold Operation.ofStore
  rw [Operation.call_bind, Operation.run, answer, h]
  rfl

theorem complete_userinfo (token : String) (h : (replies 2).healthy) :
    complete (Endpoint.userinfo token) w replies =
      match Jws.inspect .access w.ring (replies 1).clock.seconds token with
      | .ok c => ((w.store.user? c.sub).elim (.error (.invalidToken "unknown subject"))
          fun user => .ok (.ofUser user), w)
      | .error r => (.error (.invalidToken r.message), w) := by
  have hperform : ∀ id, w.perform (replies 2) (.store (.getUser id)) =
      (.ok (w.store.user? id), w) := by
    intro id
    unfold perform
    rw [Option.isNone_iff_eq_none.1 h]
    rfl
  have hrun : (Endpoint.userinfo token).run answer (w, replies) =
      (Operation.ofExcept (Jws.verify .access w.ring (replies 1).clock.seconds token) >>= fun c =>
        Operation.ofStore (.getUser c.sub) >>= Endpoint.describe).run answer
          (w, fun n => replies (n + 2)) := by
    rw [Endpoint.userinfo_eq]
    rfl
  unfold complete
  rw [hrun, Jws.verify]
  rcases Jws.inspect .access w.ring (replies 1).clock.seconds token with r | c
  · rfl
  · show (((Operation.ofStore (.getUser c.sub) >>= _ : Operation UserInfo).run answer _).1,
      ((Operation.ofStore (.getUser c.sub) >>= _ : Operation UserInfo).run answer _).2.1) = _
    rw [run_ofStore (hperform c.sub)]
    dsimp only
    rcases w.store.user? c.sub with _ | user <;> rfl

end World

theorem Jws.passesAsAccess {text : String} {c : IdClaims} (h : claims? .idToken text = some c) :
    PassesAsAccess text c := by
  intro w replies
  have hid : World.complete (Signing.verify .idToken text) w replies = _ :=
    World.complete_verify .idToken text
  have haccess : World.complete (Signing.verify .access text) w replies = _ :=
    World.complete_verify .access text
  have huser : (replies 2).healthy → World.complete (Endpoint.userinfo text) w replies = _ :=
    World.complete_userinfo text
  rw [inspect_access h] at haccess huser
  rcases hi : inspect .idToken w.ring (replies 1).clock.seconds text with r | c' <;>
    rw [hi] at hid haccess huser
  · exact .inr ⟨r.message, hid, haccess, huser⟩
  · obtain rfl : c' = c := Option.some.inj ((claims?_of_inspect hi).symm.trans h)
    exact .inl ⟨hid, haccess, huser⟩

/-- What a key of a ring takes for signed was signed with it in the run. The signature need not be
the one that was made: some algorithms let anyone write another. -/
def System.Unforged (s : System) (ring : KeyRing) (token : String) : Prop :=
  ∀ parts key signature, Jws.Segments.ofText? token = some parts → key ∈ ring.keys →
    ofBase64Url? parts.signature = some signature →
    key.pair.verifies (utf8 parts.message) signature = true →
    ∃ u, s.Signed u ∧ u.key = key ∧ u.parts.message = parts.message

/-- What was signed in a run is not forged. -/
theorem System.Unforged.of_signed {s : System} {u : Signature} {ring : KeyRing} (hu : s.Signed u)
    (hkeys : ∀ key ∈ ring.keys, key = u.key) : s.Unforged ring u.text := by
  intro parts key signature hparts hkey _ _
  obtain rfl : u.parts = parts := Option.some.inj (Jws.ofText?_sign.symm.trans hparts)
  exact ⟨u, hu, (hkeys key hkey).symm, rfl⟩

namespace System

variable {w : World} {moves : List Move} {token : String} {past : List Event} {info : UserInfo}

/-- A ring and an instant at which a request has found a token valid. -/
theorem exists_inspect
    (ht : ⟨.userinfo token, past, .done (.ok info)⟩ ∈ ((start w).run moves).threads) :
    ∃ ring second c, ⟨.ring, ring⟩ ∈ past ∧ Jws.inspect .access ring second token = .ok c := by
  have hends : (Endpoint.userinfo token).Ends past (.ok info) := ends_of_done ht rfl
  obtain ⟨c, _, _, rfl, hverify, -⟩ := hends.exists_of_bind
  obtain ⟨ring, _, _, rfl, hring, hclock⟩ := hverify.exists_of_bind
  obtain ⟨now, _, _, rfl, -, hread⟩ := hclock.exists_of_bind
  obtain rfl := hring.eq_of_ask
  obtain ⟨rfl, hc⟩ := hread.of_ofExcept
  refine ⟨ring, now.seconds, c, by simp, ?_⟩
  unfold Jws.verify at hc
  rcases hinspect : Jws.inspect .access ring now.seconds token with r | c' <;>
    rw [hinspect] at hc <;> cases hc
  rfl

/-- Header and payload of a token that names its user were signed in the run. -/
theorem signed_of_userinfo
    (ht : ⟨.userinfo token, past, .done (.ok info)⟩ ∈ ((start w).run moves).threads)
    (hunforged : ∀ ring, ⟨.ring, ring⟩ ∈ past → ((start w).run moves).Unforged ring token) :
    ∃ u signature, ((start w).run moves).Signed u ∧
      token = Jws.Segments.text { u.parts with signature } := by
  obtain ⟨ring, second, c, hring, hinspect⟩ := exists_inspect ht
  obtain ⟨s, key, hvouched⟩ := Jws.vouched_of_inspect hinspect
  obtain ⟨random, hsignature⟩ := hvouched.signed
  obtain ⟨u, hu, -, hmessage⟩ := hunforged ring hring s key _ hvouched.ofText? hvouched.mem
    hsignature (key.pair.verifies_sign random _)
  refine ⟨u, s.signature, hu, ?_⟩
  calc token = s.text := Jws.Segments.text_of_ofText? hvouched.ofText?
    _ = u.parts.message ++ "." ++ s.signature := by rw [hmessage]; rfl

end System

theorem Signature.exists_claims {u : Signature} (h : u.draft.kind = .id) :
    ∃ c, Jws.claims? .idToken u.text = some c := by
  obtain ⟨key, random, ⟨claims, lifetime⟩ | ⟨claims, lifetime, accessToken⟩⟩ := u
  · cases h
  · exact ⟨_, Jws.claims?_idToken key random
      ⟨claims.expiringAfter lifetime.seconds, accessToken.map atHash⟩⟩

/-- What is behind the answer to an exchange is in the store. -/
theorem Endpoint.granted_of_complete {e : Endpoint} {r : TokenRequest} {t : TokenResponse}
    {w w' : World} {replies : Nat → Reply} (hr : ∀ n, (replies n).healthy)
    (ho : World.complete (e.exchange r) w replies = (.ok t, w')) :
    ∃ past, History.Granted e r past t ∧ ∀ ev ∈ past, w'.store.Shows ev := by
  have hobeys : (e.exchange r).Obeys History.discipline
      (History.Goes ⟨.exchange e r, []⟩ (History.Granted e r)) ⟨.exchange e r, []⟩ :=
    History.obeys_tokenRequest e rfl
  have hkeeps : ∀ (s : Store) (φ : History.Progress) c, (∀ ev ∈ φ.past, s.Shows ev) →
      History.Permits φ.request φ.past c →
      ∀ ev ∈ (φ.next c (s.perform c).1).past, (s.perform c).2.Shows ev := by
    intro s φ c hs _ ev hev
    rcases List.mem_append.1 hev with hev | hev
    · exact (hs ev hev).mono (s.keepsCodes_perform c) (s.extends_perform c)
    · rw [List.mem_singleton.1 hev]
      exact s.shows_perform c
  obtain ⟨φ, ⟨-, hgranted⟩, hshows⟩ :=
    hobeys.complete_store hkeeps (fun _ h => absurd h List.not_mem_nil) hr
  rw [ho] at hgranted hshows
  exact ⟨φ.past, hgranted, hshows⟩

/-- An ID token acts as an access token as long as it is valid, and no header and payload act as one
but what was signed as one or the other, unless they are forged. -/
theorem kinds_not_told_apart {w : World} {moves : List Move} :
    (∀ {e r t text}, ((System.start w).run moves).Answered e r t → t.idToken = some text →
      (∃ u, ((System.start w).run moves).Signed u ∧ u.draft.kind = .id ∧ u.text = text) ∧
        ∃ c, Jws.claims? .idToken text = some c ∧ Jws.PassesAsAccess text c) ∧
    ∀ {token past info},
      ⟨.userinfo token, past, .done (.ok info)⟩ ∈ ((System.start w).run moves).threads →
      (∀ ring, ⟨.ring, ring⟩ ∈ past → ((System.start w).run moves).Unforged ring token) →
      ∃ u signature, ((System.start w).run moves).Signed u ∧
        token = Jws.Segments.text { u.parts with signature } := by
  refine ⟨fun {e r t text} ht htext => ?_, System.signed_of_userinfo⟩
  have hshown : t.signed? .id = some text := htext
  obtain ⟨u, hu, hkind, rfl⟩ := System.signed_of_answered ht hshown
  obtain ⟨c, hc⟩ := Signature.exists_claims hkind
  exact ⟨⟨u, hu, hkind, rfl⟩, c, hc, Jws.passesAsAccess hc⟩

namespace Sample

theorem answered_codeRequest :
    ∃ t, ((System.start world).run renewals).Answered endpoint codeRequest t := by
  have hends : ((System.start world).run renewals).threads.map Thread.succeeded =
      [true, true, true] := by decide +kernel
  have hrequests : ((System.start world).run renewals).threads.map Thread.request =
      [consent, grant 1, .exchange endpoint renewal] :=
    System.requests_run renewals (System.start world)
  refine System.exists_answered (i := 1) ?_ ?_
  · rw [hrequests]
    rfl
  · rw [hends]
    rfl

/-- An ID token for which the endpoint was not asked. -/
def idSignature : Signature :=
  ⟨key, Vector.replicate 32 1, .id (claims 0) (.ofSeconds 600) none⟩

def idSigning : Thread :=
  ⟨.signId (claims 0) (.ofSeconds 600) none,
    [⟨.ring, world.ring⟩, ⟨.random 32, (Vector.replicate 32 1 : Vector UInt8 32)⟩],
    .done (.ok idSignature.text)⟩

/-- A request for the user behind a token, which has looked at the key ring and the clock and has
still to do the rest. -/
def asked (token : String) (rest : Operation UserInfo) : Thread :=
  ⟨.userinfo token, [⟨.ring, world.ring⟩, ⟨.clock, (⟨0⟩ : Time.Timestamp)⟩], rest⟩

/-- The same request when it has got what it asked for. -/
def accepted (token : String) : Thread :=
  ⟨.userinfo token, [⟨.ring, world.ring⟩, ⟨.clock, (⟨0⟩ : Time.Timestamp)⟩,
    ⟨.store (.getUser "u1"), (.ok (some alice) : Except StoreError (Option User))⟩],
    .done (.ok (.ofUser alice))⟩

/-- An ID token is signed, and a token presented. -/
def presentation (token : String) : List Move :=
  .start (.signId (claims 0) (.ofSeconds 600) none) :: steps 0 1 2 ++
    .start (.userinfo token) :: steps 1 2 3

theorem run_presentation {token : String} {c : Claims}
    (h : Jws.inspect .access world.ring 0 token = .ok c) (hsub : c.sub = "u1") :
    (System.start world).run (presentation token) = ⟨world, [idSigning, accepted token]⟩ := by
  have hrun : (System.start world).run (presentation token) =
      (⟨world, [idSigning, asked token do
        let c ← Operation.ofExcept (Jws.verify .access world.ring 0 token)
        Operation.ofStore (.getUser c.sub) >>= Endpoint.describe]⟩ : System).run
          (steps 1 2 1) := by
    have hstart : (System.start world).run (presentation token) =
        (⟨world, [idSigning, ⟨.userinfo token, [], Endpoint.userinfo token⟩]⟩ : System).run
          (steps 1 2 3) := rfl
    rw [hstart, Endpoint.userinfo_eq]
    rfl
  rw [hrun, Jws.verify, h]
  obtain ⟨iss, sub, aud, iat, exp, jti, scope, clientId, nonce⟩ := c
  obtain rfl : sub = "u1" := hsub
  rfl

theorem inspect_idSignature : Jws.inspect .access world.ring 0 idSignature.text =
    .ok ((claims 0).expiringAfter 600) := by
  have hclaims : Jws.claims? .idToken idSignature.text =
      some ⟨(claims 0).expiringAfter 600, none⟩ := Jws.claims?_idToken key _ _
  have hfind : world.ring.find? key.kid = some key := rfl
  have hvalid : Jws.inspect .idToken world.ring 0 idSignature.text = .ok _ :=
    (Jws.inspect_sign hfind hclaims (by decide : (0 : Int) ≤ 0)).1 (by decide)
  rw [Jws.inspect_access hclaims, hvalid]
  rfl

/-- The ID token is presented where an access token should be. -/
def crossed : System := (System.start world).run (presentation idSignature.text)

end Sample

theorem kinds_not_told_apart_presented :
    (∃ t text, ((System.start Sample.world).run Sample.renewals).Answered Sample.endpoint
        Sample.codeRequest t ∧ t.idToken = some text ∧
        ∃ c, Jws.claims? .idToken text = some c ∧ Jws.PassesAsAccess text c) ∧
    Sample.accepted Sample.idSignature.text ∈ Sample.crossed.threads ∧
    (∀ ring, ⟨.ring, ring⟩ ∈ (Sample.accepted Sample.idSignature.text).past →
      Sample.crossed.Unforged ring Sample.idSignature.text) ∧
    ∃ u signature, Sample.crossed.Signed u ∧
      Sample.idSignature.text = Jws.Segments.text { u.parts with signature } := by
  constructor
  · obtain ⟨t, ht⟩ := Sample.answered_codeRequest
    obtain ⟨_, -, hgranted⟩ := ht.granted
    cases hgranted with
    | refresh htype => exact absurd htype (by decide)
    | code htype hfound hstored hclient hgrants htells =>
      obtain ⟨text, -, htext, -⟩ := htells.idToken
      exact ⟨t, text, ht, htext, (kinds_not_told_apart.1 ht htext).2⟩
  · have hthreads : Sample.crossed.threads =
        [Sample.idSigning, Sample.accepted Sample.idSignature.text] :=
      congrArg System.threads (Sample.run_presentation Sample.inspect_idSignature rfl)
    have hsigned : Sample.crossed.Signed Sample.idSignature := by
      refine ⟨Sample.idSigning, ?_, .sign rfl⟩
      rw [hthreads]
      exact List.mem_cons_self
    have hmem : Sample.accepted Sample.idSignature.text ∈ Sample.crossed.threads := by
      rw [hthreads]
      exact List.mem_cons_of_mem _ List.mem_cons_self
    have hunforged : ∀ ring, ⟨.ring, ring⟩ ∈ (Sample.accepted Sample.idSignature.text).past →
        Sample.crossed.Unforged ring Sample.idSignature.text := by
      intro ring hring
      obtain rfl : ring = Sample.world.ring := by simpa [Sample.accepted] using hring
      exact .of_signed hsigned fun _ h => List.mem_singleton.1 h
    exact ⟨hmem, hunforged, kinds_not_told_apart.2 hmem hunforged⟩

/-- The ID token of an exchange names its user to whoever presents it as an access token. -/
theorem id_token_as_access_token : ∃ t w' text c,
    World.complete (Sample.endpoint.exchange Sample.codeRequest) Sample.consented
      (fun _ => Sample.reply 2) = (.ok t, w') ∧
    t.idToken = some text ∧
    World.complete (Signing.verify .access text) w' (fun _ => Sample.reply 3) = (.ok c, w') ∧
    World.complete (Endpoint.userinfo text) w' (fun _ => Sample.reply 3) =
      (.ok (.ofUser Sample.alice), w') := by
  have hkind : (World.complete (Sample.endpoint.exchange Sample.codeRequest) Sample.consented
      fun _ => Sample.reply 2).1.kind = .ok () := by decide +kernel
  have hcodes : (World.complete (Sample.endpoint.exchange Sample.codeRequest) Sample.consented
      fun _ => Sample.reply 2).2.store.codes.map (·.userId) = ["u1"] := by decide +kernel
  have husers : (World.complete (Sample.endpoint.exchange Sample.codeRequest) Sample.consented
      fun _ => Sample.reply 2).2.store.users = [Sample.alice] := by decide +kernel
  obtain ⟨t, ht⟩ := Outcome.kind_eq_ok.1 hkind
  have ho := World.complete_eq ht
  generalize (World.complete (Sample.endpoint.exchange Sample.codeRequest) Sample.consented
    fun _ => Sample.reply 2).2 = w' at ho hcodes husers
  have hclock : ∀ byte, ∀ _ : Nat, (Sample.reply byte).clock = ⟨0⟩ := fun _ _ => rfl
  obtain ⟨-, text, htext, hvalid, -⟩ :=
    verify_of_exchange rfl (by decide) (hclock 2) (hclock 3) ho
  obtain ⟨c, hc⟩ := hvalid (by decide)
  obtain ⟨past, hgranted, hshows⟩ := Endpoint.granted_of_complete (fun _ => rfl) ho
  cases hgranted with
  | refresh htype => exact absurd htype (by decide)
  | @code c₀ rec htype hfound hstored hclient hgrants htells =>
    obtain ⟨text', c', htext', hclaims, hc'⟩ := htells.idToken
    obtain rfl : text' = text := Option.some.inj (htext'.symm.trans htext)
    obtain ⟨used, hcode⟩ : w'.store.Shows (StoreEvent.foundCode c₀) := hshows _ hfound
    have huser : c₀.userId ∈ w'.store.codes.map (·.userId) :=
      List.mem_map_of_mem (f := (·.userId)) (List.mem_of_find?_eq_some hcode)
    have hsub : c'.sub = "u1" := by
      rw [hcodes, List.mem_singleton] at huser
      rw [hc'.sub, TokenRecord.subject, hgrants.userId, huser]
      rfl
    rcases Jws.passesAsAccess hclaims w' fun _ => Sample.reply 3 with
      ⟨-, haccess, hinfo⟩ | ⟨m, hrefused, -⟩
    · refine ⟨t, w', text', _, ho, htext, haccess, (hinfo rfl).trans ?_⟩
      rw [Store.user?, husers]
      dsimp only
      rw [hsub]
      rfl
    · cases hc.symm.trans hrefused

end TokenAuthority

import TokenAuthority.Proofs.Code.Acceptance
import TokenAuthority.Proofs.Moments

/-!
# Clients that prove possession

A client that makes its challenge from a verifier of the standard form gets a code for it, and gets
what the code stands for with that verifier, whether or not the form is checked
(`conforming_never_locked_out`). The three checks fit together since the digest of any text has the
form of a digest (`Pkce.digestForm_digest`). That others try the code in between makes no difference
as long as none of them redeems it (`System.code?_run`).
-/

namespace TokenAuthority

open Encoding Operation StoreEvent Time

namespace Pkce

/-- The digest of any text has the form of a challenge that is one. -/
theorem digestForm_digest (s : String) : DigestForm (digest s) where
  length := by
    rw [digest, base64Url, String.length_ofList, Base64Url.length_encode, length_sha256]
  base64Url c hc := by
    rw [digest, base64Url, String.toList_ofList] at hc
    have hall : ∀ k : Fin 64, isBase64Url (sextetChar k) := by decide
    obtain ⟨k, rfl⟩ := Base64Url.mem_encode hc
    exact hall k

theorem checkChallenge_eq_ok_iff {challenge : String} {m : PkceMethod} :
    checkChallenge challenge m = .ok () ↔ ChallengeForm challenge m := by
  rw [← hasChallengeForm_iff]
  unfold checkChallenge
  split_ifs with h <;> simp [h]

/-- A verifier of the standard form passes the check of its challenge, whatever the method. -/
theorem VerifierForm.challengeForm {v : String} (h : VerifierForm v) :
    ∀ m, ChallengeForm (challengeOf v m) m
  | .plain => h
  | .s256 => digestForm_digest v

theorem VerifierForm.challengeOf_ne_empty {v : String} (h : VerifierForm v) (m : PkceMethod) :
    challengeOf v m ≠ "" := by
  intro he
  have hlength : 43 ≤ (challengeOf v m).length := by
    cases m with
    | plain => exact h.least
    | s256 => exact Nat.le_of_eq (digestForm_digest v).length.symm
  rw [he] at hlength
  cases hlength

end Pkce

/-- A call leaves a code as it is, or marks it as used. -/
theorem World.code?_perform (reply : Reply) (w : World) (c : Call) {v : String}
    {d : AuthorizationCode} (hd : w.store.code? v = some d) :
    (w.perform reply c).2.store.code? v = some d ∨
      Event.store? ⟨c, (w.perform reply c).1⟩ = some (marked v) := by
  cases c with
  | store c =>
    unfold World.perform
    rcases reply.storeFailure with _ | e
    · exact (Store.code?_perform_of_some c hd).imp_right fun ⟨he, _⟩ => congrArg some he
    · exact .inl hd
  | generateKey =>
    unfold World.perform
    rcases reply.keyFailure with _ | e <;> exact .inl hd
  | _ => exact .inl hd

namespace System

variable {s : System} {v : String} {d : AuthorizationCode}

theorem Unspent.of_run {moves : List Move} (h : (s.run moves).Unspent v) : s.Unspent v := by
  intro t ht hmarked
  obtain ⟨i, hi⟩ := List.mem_iff_getElem?.1 ht
  obtain ⟨u, hu, -, hpast⟩ := exists_getElem?_run moves hi
  exact h u (List.mem_of_getElem? hu) (List.filterMap_subset _ hpast hmarked)

theorem code?_move {m : Move} (hd : s.world.store.code? v = some d)
    (hunspent : (s.move m).Unspent v) : (s.move m).world.store.code? v = some d := by
  cases m with
  | step i reply =>
    rcases hi : s.threads[i]? with _ | t
    · unfold move
      dsimp only
      rw [hi]
      exact hd
    rw [move_step hi] at hunspent ⊢
    obtain ⟨q, past, o | ⟨c, next⟩⟩ := t
    · exact hd
    refine (s.world.code?_perform reply c hd).resolve_right fun hmarked => ?_
    refine hunspent _ (mem_set_self hi) (List.mem_filterMap.2 ⟨_, ?_, hmarked⟩)
    exact List.mem_append_right past List.mem_cons_self
  | _ => exact hd

/-- A code that no request has redeemed is as it was. -/
theorem code?_run : ∀ (moves : List Move) {s : System}, s.world.store.code? v = some d →
    (s.run moves).Unspent v → (s.run moves).world.store.code? v = some d
  | [], _, hd, _ => hd
  | m :: moves, s, hd, hunspent =>
    code?_run moves (code?_move hd (Unspent.of_run (s := s.move m) hunspent)) hunspent

end System

namespace Codes

variable {p p' : CodePolicy} {q : CodeRequest} {client : Client} {c : AuthorizationCode}
  {r : Redemption} {v : String} {m : PkceMethod} {now now' : Instant}

/-- A request for a code that its client means to redeem with a verifier. -/
structure Conforms (p : CodePolicy) (client : Client) (q : CodeRequest) (v : String)
    (m : PkceMethod) : Prop extends Admits client q where
  verifier : Pkce.checkVerifier v = .ok ()
  method : PkceMethod.parse q.method = .ok m
  allowed : m = .plain → p.allowPlain = true
  challenge : q.challenge = some (Pkce.challengeOf v m)

theorem Conforms.acceptMethod (h : Conforms p client q v m) :
    acceptMethod p client q = .ok (some m) := by
  have hform := Pkce.checkVerifier_eq_ok_iff.1 h.verifier
  have haccept : acceptChallenge p (Pkce.challengeOf v m) q.method = .ok m :=
    acceptChallenge_eq_ok_iff.2
      ⟨h.method, h.allowed, hform.challengeOf_ne_empty m, fun _ => hform.challengeForm m⟩
  unfold Codes.acceptMethod
  rw [h.challenge]
  dsimp only
  rw [haccept]
  rfl

/-- The code of such a request is redeemed with the verifier before it expires. -/
theorem Conforms.acceptRedemption (h : Conforms p client q v m) (hc : Grants p q now client c)
    (hr : r = ⟨c.code, q.clientId, q.redirectUri, some v⟩) (hbefore : now' < c.expiresAt) :
    acceptRedemption p' c r now' = .ok () := by
  subst hr
  have hmethod : c.method = some m := by
    have haccept := acceptMethod_eq_ok_iff.2 hc.method
    exact (Except.ok.inj (h.acceptMethod.symm.trans haccept)).symm
  refine acceptRedemption_eq_ok_iff.2 ⟨hc.used, hbefore, hc.clientId, hc.redirectUri, ?_⟩
  refine acceptVerifier_eq_ok_iff.2 fun challenge hchallenge => ⟨v, rfl, fun _ => ?_, ?_⟩
  · exact Pkce.checkVerifier_eq_ok_iff.1 h.verifier
  · rw [hmethod]
    exact Option.some.inj (h.challenge.symm.trans (hc.challenge.symm.trans hchallenge))

/-- On a store that works a redemption that passes the checks succeeds. -/
theorem redeems_of_accepted {w : World} {replies : Nat → Reply}
    (hc : w.store.code? r.code = some c) (haccept : acceptRedemption p c r now = .ok ())
    (hreplies : ∀ n, (replies n).healthy) :
    ∃ d w', World.complete (redeem p r now) w replies = (.ok d, w') := by
  have hchecked : checked p r now w.store = .ok c := by
    unfold checked
    rw [hc]
    dsimp only
    rw [haccept]
    rfl
  have hcourse := course_redeem p r now w hreplies
  rcases ho : World.complete (redeem p r now) w replies with ⟨o, w'⟩
  rw [ho] at hcourse
  cases hcourse with
  | redeemed => exact ⟨_, _, rfl⟩
  | refused he => cases hchecked.symm.trans he
  | failed hG => exact absurd hG not_fallible_healthy

/-- On a store that works a request that conforms gets a code that is new, and is kept in it. -/
theorem Conforms.issued {w : World} {replies : Nat → Reply} (h : Conforms p client q v m)
    (hclient : w.store.client? q.clientId = some client) (hlifetime : (now.after p.lifetime).isSome)
    (hhealthy : ∀ n, (replies n).healthy)
    (hnew : w.store.Unissued (World.calls (issue p q now) w replies)) :
    ∃ c w', World.complete (issue p q now) w replies = (.ok c.code, w') ∧
      w'.store.code? c.code = some c ∧ Grants p q now client c := by
  have hissuing : Issuing p q now w.store (World.complete (issue p q now) w replies).1
      (World.complete (issue p q now) w replies).2.store
      (World.calls (issue p q now) w replies) := (ensures_issue hlifetime).complete hhealthy
  have hsecures := acceptMethod_eq_ok_iff.1 h.acceptMethod
  rcases ho : World.complete (issue p q now) w replies with ⟨o, w'⟩
  rw [ho] at hissuing
  generalize hs : w'.store = s at hissuing
  cases hissuing with
  | @issued client' c _ hclient' _ hgrants hcode =>
    obtain rfl := Option.some.inj (hclient.symm.trans hclient')
    refine ⟨c, w', rfl, ?_, hgrants⟩
    rw [hs, Store.code?_append hcode, if_pos rfl]
  | refused hrefused => exact absurd hsecures (hrefused client _ hclient h.toAdmits)
  | taken htaken => exact absurd hnew htaken

/-- Whatever happens from now on, as long as no request redeems the code it can be redeemed until
it expires. -/
def Honours (w : World) (r : Redemption) (expiresAt : Instant) : Prop :=
  ∀ (threads : List Thread) (moves : List Move) (p : CodePolicy) (now : Instant)
    (replies : Nat → Reply), ((System.mk w threads).run moves).Unspent r.code →
    now < expiresAt → (∀ n, (replies n).healthy) →
    ∃ c w', World.complete (redeem p r now) ((System.mk w threads).run moves).world replies =
      (.ok c, w')

/-- A redemption with a check of forms has shown a verifier of the standard form, if the code has a
challenge. -/
def Shown (p : CodePolicy) (r : Redemption) (c : AuthorizationCode) : Prop :=
  p.strictFormat → c.challenge.isSome → ∃ v, r.verifier = some v ∧ Pkce.VerifierForm v

theorem shown_of_accept (h : acceptRedemption p c r now = .ok ()) : Shown p r c := by
  intro hstrict hsome
  obtain ⟨challenge, hc⟩ := Option.isSome_iff_exists.1 hsome
  obtain ⟨-, -, -, -, hverifier⟩ := acceptRedemption_eq_ok_iff.1 h
  obtain ⟨v, hv, hform, -⟩ := acceptVerifier_eq_ok_iff.1 hverifier challenge hc
  exact ⟨v, hv, hform hstrict⟩

theorem obeys_any {α : Type} : ∀ x : Operation α,
    x.Obeys (.only fun _ => True) (fun _ _ => True) ()
  | .done _ => trivial
  | .call c next => ⟨by cases c <;> trivial, fun a _ => obeys_any (next a)⟩

theorem shown_redeem : (redeem p r now).Obeys (.only fun _ => True)
    (fun _ => Outcome.Yields (Shown p r)) () := by
  have hcheck : (check p r now).Obeys (.only fun _ => True)
      (fun _ => Outcome.Yields (Shown p r)) () := by
    unfold check
    refine .ofStore trivial (fun stored _ => ?_) fun _ => trivial
    rcases stored with _ | c
    · trivial
    · exact .ofExcept (fun _ haccept => shown_of_accept haccept) fun _ _ => trivial
  unfold redeem
  refine .attempt hcheck (fun _ c hc => ?_) (fun _ e _ => ?_) fun _ _ => trivial
  · refine .ofStore trivial (fun marked _ => ?_) fun _ => trivial
    rcases marked
    · exact .ask nofun fun _ => trivial
    · exact .ask nofun fun _ => hc
  · exact .ask nofun fun _ => trivial

/-- What redemptions end with. -/
def possession : Regime Unit where
  discipline := .only fun _ => True
  start _ := ()
  Fits r _ o :=
    match r, o with
    | .redeem r p _, o => o.Yields (Shown p r)
    | _, _ => True
  obeys r := by
    cases r with
    | redeem => exact shown_redeem
    | _ => exact obeys_any _

end Codes

open Codes

/-- A client that makes its challenge from a verifier of the standard form, by a method that is
allowed, gets a code if it may ask for one, and can redeem it with the verifier until it expires,
whether or not forms are checked. The digest of any text passes the check of forms, and where forms
are checked every redemption of a code with a challenge has shown a verifier of the form. -/
theorem conforming_never_locked_out :
    (∀ v, Pkce.checkVerifier v = .ok () ↔ Pkce.VerifierForm v) ∧
    (∀ (p : CodePolicy) (q : CodeRequest) (client : Client) (v : String) (m : PkceMethod)
      (now expiresAt : Instant) (w : World) (replies : Nat → Reply),
      w.store.client? q.clientId = some client → Conforms p client q v m →
      now.after p.lifetime = some expiresAt → (∀ n, (replies n).healthy) →
      w.store.Unissued (World.calls (issue p q now) w replies) →
      ∃ code w', World.complete (issue p q now) w replies = (.ok code, w') ∧
        Honours w' ⟨code, q.clientId, q.redirectUri, some v⟩ expiresAt) ∧
    (∀ s, Pkce.checkChallenge (Pkce.digest s) .s256 = .ok () ∧ Pkce.DigestForm (Pkce.digest s)) ∧
    ∀ (w : World) (moves : List Move) (i : Nat) (p : CodePolicy) (r : Redemption) (now : Instant)
      (past : List Event) (c : AuthorizationCode), ((System.start w).run moves).threads[i]? =
        some ⟨.redeem r p now, past, .done (.ok c)⟩ →
      p.strictFormat → c.challenge.isSome → ∃ v, r.verifier = some v ∧ Pkce.VerifierForm v := by
  refine ⟨fun v => Pkce.checkVerifier_eq_ok_iff, ?_, fun s => ?_, ?_⟩
  · intro p q client v m now expiresAt w replies hclient hconforms hexpires hhealthy hnew
    obtain ⟨c, w', hissue, hc, hgrants⟩ :=
      hconforms.issued hclient (by rw [hexpires]; rfl) hhealthy hnew
    refine ⟨c.code, w', hissue, fun threads moves p' now' replies' hunspent hbefore hreplies => ?_⟩
    obtain rfl : expiresAt = c.expiresAt := Option.some.inj (hexpires.symm.trans hgrants.expiresAt)
    have hkept := System.code?_run moves (s := ⟨w', threads⟩) hc hunspent
    exact redeems_of_accepted hkept (hconforms.acceptRedemption hgrants rfl hbefore) hreplies
  · have hform := Pkce.digestForm_digest s
    exact ⟨Pkce.checkChallenge_eq_ok_iff.2 hform, hform⟩
  · intro w moves i p r now past c hi
    have hlaw := possession.lawful_of_start w moves _ (List.mem_of_getElem? hi)
    exact hlaw.fits rfl

namespace Sample

def plainPolicy : CodePolicy := { codePolicy with allowPlain := true }

/-- The verifier is the challenge if no method is named. -/
def plainRequest : CodeRequest := { consentRequest with challenge := some verifier, method := none }

/-- The world in which a browser application has got its code. -/
def awaiting : World :=
  (World.complete (issue plainPolicy plainRequest ⟨0, 0⟩) world fun _ => reply 1).2

/-- Someone tries the code without the verifier. -/
def intrusion : List Move :=
  .start (.redeem (redemption none) plainPolicy ⟨1, 0⟩) :: steps 0 2 20

end Sample

/-- The application redeems its code all the same. -/
theorem conforming_never_locked_out_plain :
    ∃ c w', World.complete
      (redeem Sample.plainPolicy (Sample.redemption Sample.verifier) ⟨599, 999999999⟩)
      ((System.mk Sample.awaiting []).run Sample.intrusion).world (fun _ => Sample.reply 3) =
        (.ok c, w') := by
  obtain ⟨hclient, hnew, hcode, hunspent⟩ :
      Sample.world.store.client? "c1" = some Sample.publicApp ∧
      Sample.world.store.Unissued (World.calls (issue Sample.plainPolicy Sample.plainRequest
        ⟨0, 0⟩) Sample.world fun _ => Sample.reply 1) ∧
      (World.complete (issue Sample.plainPolicy Sample.plainRequest ⟨0, 0⟩) Sample.world
        fun _ => Sample.reply 1).1 = .ok (Sample.code 1) ∧
      ((System.mk Sample.awaiting []).run Sample.intrusion).Unspent (Sample.code 1) := by
    decide +kernel
  have hadmits : Admits Sample.publicApp Sample.plainRequest :=
    ⟨by decide, by decide, .inr (by decide +kernel)⟩
  have hconforms : Conforms Sample.plainPolicy Sample.publicApp Sample.plainRequest
      Sample.verifier .plain := ⟨hadmits, by decide +kernel, rfl, fun _ => rfl, rfl⟩
  obtain ⟨-, hserves, -⟩ := conforming_never_locked_out
  obtain ⟨code, w', hissue, hhonours⟩ := hserves Sample.plainPolicy Sample.plainRequest
    Sample.publicApp Sample.verifier .plain ⟨0, 0⟩ ⟨600, 0⟩ Sample.world (fun _ => Sample.reply 1)
    hclient hconforms (by decide +kernel) (fun _ => rfl) hnew
  obtain rfl : Sample.code 1 = code := by
    rw [hissue] at hcode
    exact (Outcome.ok.inj hcode).symm
  obtain rfl : Sample.awaiting = w' := congrArg Prod.snd hissue
  exact hhonours [] Sample.intrusion Sample.plainPolicy ⟨599, 999999999⟩ (fun _ => Sample.reply 3)
    hunspent (by decide) fun _ => rfl

end TokenAuthority

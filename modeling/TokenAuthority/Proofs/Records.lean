import TokenAuthority.Proofs.History.Invariant

/-!
# What holds of every record

Requests store no records but those that have been minted (`stores_request`), and later only the
flags of a record change. So what holds of whatever is minted holds of every record of a run
(`Store.All`, `all_run`): each has a subject and a client (`filled_run`).
-/

namespace TokenAuthority

open Operation Time

/-- All records are of a kind. -/
def Store.All (P : TokenRecord → Prop) (s : Store) : Prop := ∀ x r, s.record? x = some r → P r

section Calls

variable {P : TokenRecord → Prop} (hP : Mints P)

include hP

theorem stores_exchange (e : Endpoint) (r : TokenRequest) :
    (e.exchange r).Obeys (.only (StoreCall.Stores P)) (fun _ _ => True) () := by
  have hrespond : ∀ {x : Operation TokenSet},
      x.Obeys (.only (StoreCall.Stores P)) (fun _ _ => True) () →
      (x >>= fun t => pure (TokenResponse.ofTokenSet t)).Obeys (.only (StoreCall.Stores P))
        (fun _ _ => True) () := by
    intro x hx
    refine hx.bind ?_
    rintro _ (t | err | _) -
    · trivial
    · trivial
    · trivial
  unfold Endpoint.exchange
  split_ifs
  · refine obeys_afterRotation ?_
    unfold Endpoint.codeGrant
    refine .ofExcept (fun _ _ => .ofExcept (fun _ _ => .ofExcept (fun _ _ => ?_) fun _ _ => trivial)
      fun _ _ => trivial) fun _ _ => trivial
    refine .ask nofun fun now => Obeys.bind (P := fun _ _ => True) ?_ ?_
    · exact (only_redeem _ _ now).only_mono fun c hc => by cases c <;> trivial
    rintro _ (c | err | _) -
    · exact .ask nofun fun now' => hrespond ((calls_issue hP _ _ now').only_mono fun _ h => h.2)
    · trivial
    · trivial
  · refine obeys_afterRotation ?_
    unfold Endpoint.refreshGrant
    refine .ofExcept (fun _ _ => .ofExcept (fun _ _ => ?_) fun _ _ => trivial) fun _ _ => trivial
    exact .ask nofun fun now => hrespond ((calls_refresh hP _ _ now).only_mono fun _ h => h.2)
  · trivial

/-- Requests store nothing but what has been minted. -/
theorem stores_request (q : Request) :
    q.operation.Obeys (.only (StoreCall.Stores P)) (fun _ _ => True) () := by
  cases q with
  | issue r p now => exact (calls_issue hP r p now).only_mono fun _ h => h.2
  | refresh r p now => exact (calls_refresh hP r p now).only_mono fun _ h => h.2
  | exchange e r => exact stores_exchange hP e r
  | token e r => exact (obeys_token (stores_exchange hP e r)).mono fun _ _ _ => trivial
  | revoke t => exact (only_revoke t).only_mono fun _ ⟨_, hc⟩ => hc ▸ trivial
  | userinfo t => exact (only_userinfo t).only_mono fun _ ⟨_, hc⟩ => hc ▸ trivial
  | issueCode r p now =>
    exact (only_issueCode p r now).only_mono fun c hc => by cases c <;> trivial
  | redeem r p now =>
    exact (only_redeem p r now).only_mono fun c hc => by cases c <;> trivial
  | _ => exact Obeys.only_mono (fun _ hc => hc.elim) (quiet_request rfl)

end Calls

namespace Store

variable {P : TokenRecord → Prop} {s : Store}

/-- A call keeps what flags make no difference to. -/
theorem All.perform (hgrows : ∀ {r r' : TokenRecord}, r.Grows r' → P r → P r') (h : s.All P)
    {c : StoreCall} (hc : c.Stores P) : (s.perform c).2.All P := by
  intro x r hr
  rcases s.record?_perform c hr with ⟨r₀, hr₀, hgrown⟩ | ⟨he, -, -⟩
  · exact hgrows hgrown (h x r₀ hr₀)
  · obtain rfl : c = .createRecord r := congrArg Sigma.fst he
    exact hc

end Store

def minting {P : TokenRecord → Prop} (hP : Mints P) : Regime Unit where
  discipline := .only (StoreCall.Stores P)
  start _ := ()
  Fits _ _ _ := True
  obeys := stores_request hP

/-- What holds of all that is minted, whatever becomes of its flags, holds of all records of a
run that begins without any. -/
theorem all_run {P : TokenRecord → Prop} (hP : Mints P)
    (hgrows : ∀ {r r' : TokenRecord}, r.Grows r' → P r → P r') {w : World}
    (hw : w.store.records = []) (moves : List Move) :
    ((System.start w).run moves).world.store.All P := by
  have hkeeps : (minting hP).Keeps (fun w _ => w.store.All P) fun _ => True :=
    .ofStore (K := fun s _ => s.All P) rfl (fun _ _ _ h => h) (fun _ _ _ _ h => h)
      (fun _ _ _ _ _ h _ hc => h.perform hgrows hc) fun _ _ _ _ _ _ _ _ _ h _ _ => h
  refine hkeeps.of_start (fun x r hr => ?_) fun _ _ _ => trivial
  simp [Store.record?, hw] at hr

/-- A record names a subject and a client. -/
structure TokenRecord.Filled (r : TokenRecord) : Prop where
  subject : r.subject ≠ ""
  clientId : r.clientId ≠ ""

theorem ne_of_filled? {s : Option String} {t : String} (h : filled? s = some t) : t ≠ "" := by
  simpa using (Option.filter_eq_some_iff.1 h).2

theorem mints_filled : Mints TokenRecord.Filled := by
  intro m p now
  refine (quiet_mint_bears m p now).mono ?_
  rintro _ (⟨t, r⟩ | e | _) h
  · obtain ⟨⟨-, -, hclient, huser, -⟩, hbears⟩ := h
    obtain ⟨jti, c, hbuild, -⟩ := hbears.claims
    unfold ClaimsRequest.build at hbuild
    split at hbuild
    · cases hbuild
    · cases hbuild
    · rename_i subject clientId hsubject hclientId
      have hsub := Option.some.inj (Option.filter_eq_some_iff.1 hsubject).1
      have hid := Option.some.inj (Option.filter_eq_some_iff.1 hclientId).1
      refine ⟨?_, ?_⟩
      · rw [TokenRecord.subject, huser, hclient, hsub]
        exact ne_of_filled? hsubject
      · rw [hclient, hid]
        exact ne_of_filled? hclientId
  · trivial
  · trivial

theorem TokenRecord.Filled.grows {r r' : TokenRecord} (hgrows : r.Grows r') (h : r.Filled) :
    r'.Filled := by
  rw [hgrows.same]
  exact ⟨h.subject, h.clientId⟩

theorem filled_run {w : World} (hw : w.store.records = []) (moves : List Move) :
    ((System.start w).run moves).world.store.All TokenRecord.Filled :=
  all_run mints_filled TokenRecord.Filled.grows hw moves

end TokenAuthority

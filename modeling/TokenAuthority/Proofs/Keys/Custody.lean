import TokenAuthority.Proofs.Calls

/-!
# The custody of a new key

Most operations have nothing to do with the making of keys (`Operation.Idle`). Those that replace
the signing key follow one rule (`custody`): a request makes one key at most, and puts in none but
the one that it has made, once. A request that does not end with a replacement of the key has done
nothing to the ring (`Event.Still`).
-/

namespace TokenAuthority

open Operation Time

variable {α β : Type}

/-- A call that neither makes a key nor puts one in. -/
def Call.IsIdle : Call → Prop
  | .generateKey _ _ | .installKey _ _ | .rotateKey _ _ => False
  | _ => True

/-- An operation makes only idle calls. -/
class Operation.Idle (x : Operation α) : Prop where
  obeys : x.Obeys ⟨fun _ c => c.IsIdle, fun _ _ _ => ()⟩ (fun _ _ => True) ()

namespace Operation

instance (a : α) : Idle (pure a : Operation α) := ⟨trivial⟩

instance (e : TokenError) : Idle (fail e : Operation α) := ⟨trivial⟩

instance : Idle (overflow : Operation α) := ⟨trivial⟩

theorem idle_bind {x : Operation α} [hx : Idle x] {f : α → Operation β} (hf : ∀ a, Idle (f a)) :
    Idle (x >>= f) where
  obeys := by
    refine hx.obeys.bind ?_
    rintro ⟨⟩ (a | e | _) -
    · exact (hf a).obeys
    · trivial
    · trivial

instance (x : Operation α) (f : α → Operation β) [Idle x] [hf : ∀ a, Idle (f a)] :
    Idle (x >>= f) := idle_bind hf

instance (x : Operation α) (f : α → β) [Idle x] : Idle (f <$> x) := by
  rw [map_eq_pure_bind]
  infer_instance

instance (x : Operation α) [hx : Idle x] : Idle x.attempt where
  obeys := by
    refine (obeys_attempt x ()).2 (hx.obeys.mono ?_)
    rintro ⟨⟩ (a | e | _) - <;> trivial

instance (p : Prop) [Decidable p] (x y : Operation α) [Idle x] [Idle y] :
    Idle (if p then x else y) := by
  split_ifs <;> infer_instance

instance (x : Except TokenError α) : Idle (ofExcept x) := by
  rcases x with e | a
  · exact inferInstanceAs (Idle (fail e))
  · exact inferInstanceAs (Idle (pure a))

instance (now : Instant) (lifetime : Duration) : Idle (after now lifetime) := by
  unfold after
  rcases now.after lifetime with _ | t
  · exact inferInstanceAs (Idle overflow)
  · exact inferInstanceAs (Idle (pure t))

theorem idle_ask {c : Call} (h : c.IsIdle) : Idle (ask c) := ⟨h, fun _ _ => trivial⟩

theorem idle_tryStore {c : StoreCall} {f : Except StoreError c.Result → Operation β}
    (hf : ∀ a, Idle (f a)) : Idle (tryStore c >>= f) where
  obeys := .tryStore trivial fun a _ => (hf a).obeys

theorem idle_ofStore {c : StoreCall} {f : c.Result → Operation β} (hf : ∀ a, Idle (f a)) :
    Idle (ofStore c >>= f) where
  obeys := .ofStore trivial (fun r _ => (hf r).obeys) fun _ => trivial

instance : Idle (ask .clock) := idle_ask trivial

instance : Idle (ask .ring) := idle_ask trivial

instance (n : Nat) : Idle (ask (.random n)) := idle_ask trivial

instance (counter : Counter) (n : Nat) : Idle (ask (.count counter n)) := idle_ask trivial

instance (counter : Counter) : Idle (count counter) := idle_ask trivial

end Operation

section Requests

instance (payload : Json) : Idle (Signing.sign payload) := by
  unfold Signing.sign
  infer_instance

instance (claims : Claims) (lifetime : Duration) : Idle (Signing.signAccess claims lifetime) := by
  unfold Signing.signAccess
  infer_instance

instance (claims : Claims) (lifetime : Duration) (accessToken : Option String) :
    Idle (Signing.signId claims lifetime accessToken) := by
  unfold Signing.signId
  infer_instance

instance (type : Jws.ClaimType) (token : String) : Idle (Signing.verify type token) := by
  unfold Signing.verify
  infer_instance

instance (m : Issuance.Mint) (p : TokenPolicy) (now : Instant) : Idle (Issuance.mint m p now) := by
  unfold Issuance.mint
  dsimp only
  infer_instance

instance (clientId : String) : Idle (Issuance.resolveClient clientId) := by
  unfold Issuance.resolveClient
  refine idle_ofStore fun client => ?_
  split <;> infer_instance

instance (r : IssueRequest) (p : TokenPolicy) (now : Instant) : Idle (Issuance.issue r p now) := by
  unfold Issuance.issue
  refine idle_bind fun client => idle_bind fun minted => idle_ofStore fun _ => ?_
  dsimp only
  infer_instance

instance (p : CodePolicy) (r : CodeRequest) (now : Instant) : Idle (Codes.issue p r now) := by
  unfold Codes.issue
  refine idle_ofStore fun client => ?_
  split
  · infer_instance
  · refine idle_bind fun accepted => idle_bind fun bytes => idle_bind fun expiresAt => ?_
    exact idle_ofStore fun _ => inferInstance

instance (p : CodePolicy) (r : Codes.Redemption) (now : Instant) :
    Idle (Codes.check p r now) := by
  unfold Codes.check
  refine idle_ofStore fun code => ?_
  split <;> infer_instance

instance (p : CodePolicy) (r : Codes.Redemption) (now : Instant) :
    Idle (Codes.redeem p r now) := by
  unfold Codes.redeem
  refine idle_bind fun checked => ?_
  split
  · infer_instance
  · refine idle_ofStore fun used => ?_
    split <;> infer_instance

instance (record : TokenRecord) : Idle (Rotation.burn record) := by
  unfold Rotation.burn
  refine idle_tryStore fun burned => ?_
  split <;> infer_instance

instance (record child : TokenRecord) (tokens : TokenSet) :
    Idle (Rotation.succeed record child tokens) := by
  unfold Rotation.succeed
  refine idle_ofStore fun _ => idle_tryStore fun marked => ?_
  split
  · infer_instance
  · infer_instance
  · exact idle_tryStore fun _ => inferInstance

instance (r : Rotation.Request) (p : TokenPolicy) (now : Instant) :
    Idle (Rotation.rotate r p now) := by
  unfold Rotation.rotate Rotation.exchange
  refine idle_ofStore fun record => ?_
  split <;> infer_instance

instance (r : Rotation.Request) (p : TokenPolicy) (now : Instant) :
    Idle (Rotation.refresh r p now) := by
  unfold Rotation.refresh
  infer_instance

instance (refreshToken : String) : Idle (Endpoint.revoke refreshToken) := by
  unfold Endpoint.revoke
  split
  · infer_instance
  · refine idle_ofStore fun revoked => ?_
    split <;> infer_instance

instance (accessToken : String) : Idle (Endpoint.userinfo accessToken) := by
  unfold Endpoint.userinfo
  refine idle_bind fun claims => idle_ofStore fun user => ?_
  split <;> infer_instance

instance : Idle Endpoint.publicKeys := by
  unfold Endpoint.publicKeys
  infer_instance

instance (e : Endpoint) (r : TokenRequest) : Idle (e.codeGrant r) := by
  unfold Endpoint.codeGrant
  infer_instance

instance (e : Endpoint) (r : TokenRequest) : Idle (e.refreshGrant r) := by
  unfold Endpoint.refreshGrant
  infer_instance

end Requests

/-- The key that was made in a call. -/
def Event.made? : Event → Option SigningKey
  | ⟨.generateKey _ _, a⟩ => a.toOption
  | _ => none

/-- The key that a call was to put in. -/
def Event.put? : Event → Option SigningKey
  | ⟨.installKey key _, _⟩ | ⟨.rotateKey key _, _⟩ => some key
  | _ => none

/-- A call that did nothing. -/
def Event.Still : Event → Prop
  | ⟨.ring, _⟩ | ⟨.generateKey _ _, _⟩ => True
  | ⟨.rotateKey _ _, rotated⟩ => rotated = false
  | _ => False

/-- A key is put in by the request that has made it; the phases are the calls made so far. -/
def custody : Discipline (List Event) where
  allows past
    | .generateKey _ _ => past.filterMap Event.made? = []
    | .installKey key _ | .rotateKey key _ =>
      past.filterMap Event.made? = [key] ∧ past.filterMap Event.put? = []
    | _ => True
  next past c a := past ++ [⟨c, a⟩]

theorem phase_custody : ∀ past later : List Event, custody.phase past later = past ++ later
  | past, [] => (List.append_nil past).symm
  | past, e :: later => by
    refine (phase_custody (past ++ [e]) later).trans ?_
    rw [List.append_assoc, List.singleton_append]

theorem obeys_call {Φ : Type} {D : Discipline Φ} {Q : Φ → Outcome β → Prop} {φ : Φ} {c : Call}
    {f : c.Answer → Operation β} (hc : D.allows φ c) (h : ∀ a, (f a).Obeys D Q (D.next φ c a)) :
    (ask c >>= f).Obeys D Q φ := ⟨hc, fun a _ => h a⟩

/-- Idle calls do no harm to a discipline that allows them in every phase. -/
theorem obeys_idle {Φ : Type} {D : Discipline Φ} (hD : ∀ φ c, c.IsIdle → D.allows φ c) :
    ∀ {x : Operation α} {φ : Φ},
      x.Obeys ⟨fun _ c => c.IsIdle, fun _ _ _ => ()⟩ (fun _ _ => True) () →
      x.Obeys D (fun _ _ => True) φ
  | done _, _, _ => trivial
  | call c _, φ, h => ⟨hD φ c h.1, fun a ha => obeys_idle hD (h.2 a ha)⟩

section Obeys

variable {past : List Event} {now : Timestamp}

theorem allows_custody (past : List Event) (c : Call) (h : c.IsIdle) : custody.allows past c := by
  cases c with
  | generateKey | installKey | rotateKey => exact h.elim
  | _ => trivial

theorem Operation.Idle.custody (x : Operation α) [h : Idle x] :
    x.Obeys custody (fun _ _ => True) past := obeys_idle allows_custody h.obeys

theorem obeys_ask {Q : List Event → Outcome β → Prop} {c : Call}
    {f : c.Answer → Operation β} (hc : custody.allows past c)
    (h : ∀ a, (f a).Obeys custody Q (past ++ [⟨c, a⟩])) : (ask c >>= f).Obeys custody Q past :=
  obeys_call hc h

theorem obeys_generateKey {algorithm : Algorithm} (hmade : past.filterMap Event.made? = []) :
    (Signing.generateKey algorithm now).Obeys custody (fun later o => ∃ a,
      later = past ++ [⟨.generateKey algorithm now, a⟩] ∧ o ≠ .overflow ∧
        ∀ key, o = .ok key → a = .ok key) past := by
  unfold Signing.generateKey
  refine ⟨hmade, ?_⟩
  rintro (e | key) -
  · exact ⟨_, rfl, nofun, nofun⟩
  · refine ⟨_, rfl, nofun, ?_⟩
    rintro _ ⟨rfl⟩
    rfl

/-- A request that is to replace the key has done so, or has done nothing. -/
structure Rotated (now : Timestamp) (past later : List Event) (o : Outcome Bool) : Prop where
  ends : o ≠ .overflow
  done : o = .ok true → ∃ key, ⟨.rotateKey key now, true⟩ ∈ later
  still : o ≠ .ok true → ∀ e ∈ later, e ∈ past ∨ e.Still

theorem still_append {later : List Event} {e : Event} (h : ∀ e ∈ later, e ∈ past ∨ e.Still)
    (he : e.Still) : ∀ e' ∈ later ++ [e], e' ∈ past ∨ e'.Still := by
  intro e' he'
  rcases List.mem_append.1 he' with he' | he'
  · exact h e' he'
  · exact .inr (List.mem_singleton.1 he' ▸ he)

theorem obeys_rotateIfDue (hmade : past.filterMap Event.made? = [])
    (hput : past.filterMap Event.put? = []) :
    (Signing.rotateIfDue now).Obeys custody (Rotated now past) past := by
  unfold Signing.rotateIfDue
  refine obeys_ask trivial fun ring => ?_
  have hring : ∀ e ∈ past ++ [⟨.ring, ring⟩], e ∈ past ∨ e.Still :=
    still_append (fun _ => .inl) trivial
  split_ifs with hdue
  · refine (obeys_generateKey (by simpa [custody, Event.made?] using hmade)).bind ?_
    rintro _ (key | e | _) ⟨a, rfl, ho, hkey⟩
    · obtain rfl := hkey key rfl
      have hheld : ∀ e ∈ past ++ [⟨.ring, ring⟩] ++ [⟨.generateKey ring.algorithm now, .ok key⟩],
          e ∈ past ∨ e.Still := still_append hring trivial
      refine obeys_ask ⟨?_, ?_⟩ ?_
      · rw [List.filterMap_append, List.filterMap_append, hmade]
        rfl
      · rw [List.filterMap_append, List.filterMap_append, hput]
        rfl
      -- Another request may have replaced the key since the first look.
      rintro (_ | _)
      · exact ⟨nofun, nofun, fun _ => still_append hheld rfl⟩
      · exact obeys_ask trivial fun _ =>
          ⟨nofun, fun _ => ⟨key, by simp⟩, fun h => absurd rfl h⟩
    · exact ⟨nofun, nofun, fun _ => still_append hring trivial⟩
    · exact absurd rfl ho
  · exact ⟨nofun, nofun, fun _ => hring⟩

theorem obeys_installKey : (Signing.installKey now).Obeys custody (fun later o =>
    ∀ e, o = .error e → ∀ e ∈ later, e.Still) [] := by
  unfold Signing.installKey
  refine obeys_ask trivial fun ring => ?_
  rcases ring.active with _ | a
  · refine (obeys_generateKey (by simp [Event.made?])).bind ?_
    rintro _ (key | e | _) ⟨a, rfl, ho, hkey⟩
    · obtain rfl := hkey key rfl
      exact obeys_ask ⟨rfl, rfl⟩ fun _ => nofun
    · intro _ _ e he
      simp only [List.nil_append, List.cons_append, List.mem_cons, List.not_mem_nil,
        or_false] at he
      rcases he with rfl | rfl <;> trivial
    · exact absurd rfl ho
  · exact nofun

theorem obeys_afterRotation_custody {grant : Operation α} [Idle grant] :
    (Endpoint.afterRotation grant).Obeys custody (fun _ _ => True) [] := by
  unfold Endpoint.afterRotation
  refine obeys_ask trivial fun now => .attempt (obeys_rotateIfDue rfl rfl) ?_ ?_ ?_
  · exact fun _ _ _ => Idle.custody grant
  · exact fun _ _ _ => Idle.custody grant
  · exact fun _ _ => trivial

theorem obeys_exchange_custody (e : Endpoint) (r : TokenRequest) :
    (e.exchange r).Obeys custody (fun _ _ => True) [] := by
  unfold Endpoint.exchange
  split_ifs
  · exact obeys_afterRotation_custody
  · exact obeys_afterRotation_custody
  · trivial

end Obeys

def Request.Custodial : (r : Request) → List Event → Outcome r.Result → Prop
  | rotateIfDue now, past, o => Rotated now [] past o
  | installKey _, past, o => ∀ e, o = .error e → ∀ e ∈ past, e.Still
  | _, _, _ => True

/-- Whether a request has nothing to do with the making of keys, not even on its way. -/
def Request.isIdle : Request → Bool
  | exchange _ _ | token _ _ | installKey _ | rotateIfDue _ => false
  | _ => true

theorem Request.idle_operation {r : Request} (h : r.isIdle) : Idle r.operation := by
  cases r with
  | issue r p now => exact inferInstanceAs (Idle (Issuance.issue r p now))
  | refresh r p now => exact inferInstanceAs (Idle (Rotation.refresh r p now))
  | revoke t => exact inferInstanceAs (Idle (Endpoint.revoke t))
  | issueCode r p now => exact inferInstanceAs (Idle (Codes.issue p r now))
  | redeem r p now => exact inferInstanceAs (Idle (Codes.redeem p r now))
  | userinfo t => exact inferInstanceAs (Idle (Endpoint.userinfo t))
  | publicKeys => exact inferInstanceAs (Idle Endpoint.publicKeys)
  | signAccess c l => exact inferInstanceAs (Idle (Signing.signAccess c l))
  | signId c l t => exact inferInstanceAs (Idle (Signing.signId c l t))
  | verifyAccess t => exact inferInstanceAs (Idle (Signing.verify .access t))
  | verifyId t => exact inferInstanceAs (Idle (Signing.verify .idToken t))
  | _ => cases h

def keyCustody : Regime (List Event) where
  discipline := custody
  start _ := []
  Fits := Request.Custodial
  obeys r := by
    cases r with
    | exchange e r => exact obeys_exchange_custody e r
    | token e r =>
      exact .attempt (obeys_exchange_custody e r) (fun _ _ _ => trivial) (fun _ _ _ => trivial)
        fun _ _ => trivial
    | installKey now => exact obeys_installKey
    | rotateIfDue now => exact obeys_rotateIfDue rfl rfl
    | _ => exact obeys_idle allows_custody (Request.idle_operation rfl).obeys

end TokenAuthority

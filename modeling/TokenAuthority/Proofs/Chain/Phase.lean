import TokenAuthority.Proofs.Calls

/-!
# Phases of an exchange

How far a request has come that presents a refresh identifier: it finds the record, puts a child
after it and marks it as rotated. If another came first, it revokes the chain. The phase says which
calls may come next, and what the request can end with (`regime`). All other requests put records
in the store without a parent, or revoke the one record that they name.
-/

namespace TokenAuthority

open Operation Time

/-- The refresh identifier that a request presents. -/
def TokenRequest.refreshId? (r : TokenRequest) : Option String :=
  if r.grantType = "refresh_token" then
    match filled? r.refreshToken, filled? r.clientId with
    | some refreshToken, some _ => some (refreshIdOf refreshToken)
    | _, _ => none
  else none

namespace Request

def refreshId? : Request → Option String
  | refresh r _ _ => some r.refreshId
  | exchange _ r | token _ r => r.refreshId?
  | _ => none

/-- The refresh identifier that a request asks to revoke. -/
def revokes? : Request → Option String
  | revoke refreshToken => if refreshToken = "" then none else some (refreshIdOf refreshToken)
  | _ => none

end Request

namespace Chain

/-- The first identifier is the one that was presented, the second that of its child. -/
inductive Phase where
  /-- No refresh identifier was presented. -/
  | apart
  | revoking (x : String)
  | ready (x : String)
  /-- The record was live. -/
  | found (x : String)
  /-- The record was rotated. -/
  | replayed (x : String)
  /-- The child is stored. -/
  | stored (x c : String)
  /-- The record was live no longer when it was to be marked. -/
  | beaten (x c : String)
  /-- The record could not be marked. -/
  | torn (x c : String)
  | won (x c : String)
  | burned (x : String)
  /-- The record was unknown or revoked. -/
  | refused (x : String)
  | failed (x : String)

def Allows (φ : Phase) : StoreCall → Prop
  | .getRecord x => φ = .ready x
  | .createRecord r =>
    r.live = true ∧ (φ = .apart ∧ r.parent = none ∨ ∃ x, φ = .found x ∧ r.parent = some x)
  | .markRotated x => ∃ c, φ = .stored x c
  | .revokeRecord _ => ∃ x c, φ = .torn x c
  | .revokeByRefreshId x => φ = .revoking x
  | .revokeChain x => φ = .replayed x ∨ ∃ c, φ = .beaten x c
  | .createCode _ | .markCodeUsed _ => φ = .apart
  | _ => True

namespace Phase

def key? : Phase → Option String
  | apart | revoking _ => none
  | ready x | found x | replayed x | stored x _ | beaten x _ | torn x _ | won x _ | burned x
  | refused x | failed x => some x

def afterRead (x : String) : Except StoreError (Option TokenRecord) → Phase
  | .ok none => refused x
  | .ok (some r) => if r.revoked then refused x else if r.rotated then replayed x else found x
  | .error _ => failed x

def afterCreate (c : String) : Phase → Except StoreError Unit → Phase
  | found x, .ok _ => stored x c
  | found x, .error _ => failed x
  | φ, _ => φ

def afterMark : Phase → Except StoreError Bool → Phase
  | stored x c, .ok true => won x c
  | stored x c, .ok false => beaten x c
  | stored x c, .error _ => torn x c
  | φ, _ => φ

def afterBurn (x : String) : Except StoreError Nat → Phase
  | .ok _ => burned x
  | .error _ => failed x

def next (φ : Phase) : (c : StoreCall) → Except StoreError c.Result → Phase
  | .getRecord x, a => afterRead x a
  | .createRecord r, a => φ.afterCreate r.refreshId a
  | .markRotated _, a => φ.afterMark a
  | .revokeChain x, a => afterBurn x a
  | _, _ => φ

/-- What an exchange can end with. -/
def Ends {α : Type} : Phase → Outcome α → Prop
  | won _ _, o => ∃ a, o = .ok a
  | burned _, o => o = .error .reuseDetected
  | refused _, o => ∃ m, o = .error (.invalidGrant m)
  | found _, o | torn _ _, o | failed _, o => o = .overflow ∨ ∃ e, o = .error e ∧ e ≠ .reuseDetected
  | _, _ => False

section Ends

variable {α β : Type} {φ : Phase}

theorem Ends.ok {a : α} (h : φ.Ends (.ok a)) (b : β) : φ.Ends (.ok b) := by
  rcases φ <;> simp_all [Ends]

theorem Ends.error {e : TokenError} (h : φ.Ends (.error e : Outcome α)) :
    φ.Ends (.error e : Outcome β) := by
  rcases φ <;> simp_all [Ends]

theorem Ends.overflow (h : φ.Ends (.overflow : Outcome α)) :
    φ.Ends (.overflow : Outcome β) := by
  rcases φ <;> simp_all [Ends]

end Ends

end Phase

def discipline : Discipline Phase := .ofStore Allows Phase.next

section Exchange

open Phase

theorem obeys_burn {φ : Phase} (record : TokenRecord)
    (h : Allows φ (.revokeChain record.refreshId)) :
    (Rotation.burn record).Obeys discipline Ends φ := by
  unfold Rotation.burn
  refine .tryStore h ?_
  rintro (e | n) _
  · exact .inr ⟨_, rfl, nofun⟩
  · exact .ask nofun fun _ => .ask nofun fun _ => rfl

theorem obeys_succeed (record child : TokenRecord) (tokens : TokenSet)
    (hparent : child.parent = some record.refreshId) (hlive : child.live = true) :
    (Rotation.succeed record child tokens).Obeys discipline Ends (.found record.refreshId) := by
  unfold Rotation.succeed
  refine .ofStore ⟨hlive, .inr ⟨_, rfl, hparent⟩⟩ (fun _ _ => .tryStore ⟨_, rfl⟩ ?_)
    fun e => .inr ⟨_, rfl, nofun⟩
  rintro (e | _ | _) _
  · exact .tryStore ⟨_, _, rfl⟩ fun _ _ => .inr ⟨_, rfl, nofun⟩
  · exact obeys_burn record (.inr ⟨_, rfl⟩)
  · exact ⟨_, rfl⟩

theorem obeys_exchange (record : TokenRecord) (audience : List String) (p : TokenPolicy)
    (now : Instant) :
    (Rotation.exchange record audience p now).Obeys discipline Ends (.found record.refreshId) := by
  unfold Rotation.exchange Issuance.resolveClient
  rw [bind_assoc]
  refine .ofStore trivial (fun client _ => ?_) fun e => .inr ⟨_, rfl, nofun⟩
  rcases client with _ | client
  · exact .inr ⟨_, rfl, nofun⟩
  refine obeys_mint (fun t ht => obeys_succeed _ _ _ ht.1 ht.2.1) ?_ (.inl rfl)
  rintro _ (rfl | ⟨d, rfl⟩)
  · exact .inr ⟨_, rfl, nofun⟩
  · exact .inr ⟨_, rfl, nofun⟩

theorem obeys_rotate (r : Rotation.Request) (p : TokenPolicy) (now : Instant) :
    (Rotation.rotate r p now).Obeys discipline Ends (.ready r.refreshId) := by
  unfold Rotation.rotate
  refine .ofStore rfl (fun record hr => ?_) fun e => .inr ⟨_, rfl, nofun⟩
  rcases record with _ | record
  · exact ⟨_, rfl⟩
  have hkey : record.refreshId = r.refreshId := hr record rfl
  have hphase : discipline.next (.ready r.refreshId) (.store (.getRecord r.refreshId))
      (.ok (some record)) = afterRead record.refreshId (.ok (some record)) := by
    rw [hkey]
    rfl
  rw [hphase]
  dsimp only [afterRead]
  split_ifs
  · exact ⟨_, rfl⟩
  · exact obeys_burn record (.inl rfl)
  · exact .inr ⟨_, rfl, nofun⟩
  · exact .inr ⟨_, rfl, nofun⟩
  · exact obeys_exchange _ _ _ _

theorem obeys_refresh (r : Rotation.Request) (p : TokenPolicy) (now : Instant) :
    (Rotation.refresh r p now).Obeys discipline Ends (.ready r.refreshId) := by
  unfold Rotation.refresh
  refine .attempt (obeys_rotate r p now) ?_ ?_ fun φ h => ?_
  · exact fun φ t h => .ask nofun fun _ => h
  · exact fun φ e h => .ask nofun fun _ => h
  · exact h

end Exchange

section Requests

open Phase

def start (r : Request) : Phase := r.refreshId?.elim (r.revokes?.elim .apart .revoking) .ready

/-- What a request can end with. -/
def Fits (r : Request) (φ : Phase) (o : Outcome r.Result) : Prop :=
  match φ with
  | apart | revoking _ => True
  | won _ _ => r.succeeds o
  | burned _ => r.Fails .reuseDetected o
  | refused _ => ∃ m, r.Fails (.invalidGrant m) o
  | found _ | torn _ _ | failed _ => ¬ r.succeeds o ∧ o ≠ .error .reuseDetected
  | _ => False

theorem apart_issue : ∀ c, StoreCall.OfIssue c →
    Allows .apart c ∧ ∀ a, next .apart c a = .apart
  | .getClient _, _ => ⟨trivial, fun _ => rfl⟩
  | .createRecord _, h => ⟨⟨h.2, .inl ⟨rfl, h.1⟩⟩, fun _ => rfl⟩

theorem apart_codeIssue : ∀ c, StoreCall.OfCodeIssue c →
    Allows .apart c ∧ ∀ a, next .apart c a = .apart
  | .getClient _, _ => ⟨trivial, fun _ => rfl⟩
  | .createCode _, _ => ⟨rfl, fun _ => rfl⟩

theorem apart_redemption : ∀ c, StoreCall.OfRedemption c →
    Allows .apart c ∧ ∀ a, next .apart c a = .apart
  | .getCode _, _ => ⟨trivial, fun _ => rfl⟩
  | .markCodeUsed _, _ => ⟨rfl, fun _ => rfl⟩

theorem obeys_codeGrant (e : Endpoint) (r : TokenRequest) :
    (e.codeGrant r).Obeys discipline (fun φ _ => φ = .apart) .apart := by
  unfold Endpoint.codeGrant
  refine .ofExcept (fun code _ => .ofExcept (fun clientId _ => .ofExcept (fun uri _ =>
    .ask nofun fun now => ?_) fun _ _ => rfl) fun _ _ => rfl) fun _ _ => rfl
  refine Obeys.bind (P := fun φ _ => φ = .apart)
    ((only_redeem _ _ now).of_only apart_redemption fun _ _ => rfl) ?_
  rintro _ (code | e | _) rfl
  · refine .ask nofun fun now => Obeys.bind (P := fun φ _ => φ = .apart)
      ((only_issue _ _ now).of_only apart_issue fun _ _ => rfl) ?_
    rintro _ (tokens | e | _) rfl
    · rfl
    · rfl
    · rfl
  · rfl
  · rfl

/-- What a token request can end with, by the refresh identifier that it presents. -/
def EndsAt {α : Type} : Option String → Phase → Outcome α → Prop
  | some _, φ, o => φ.Ends o
  | none, φ, _ => φ = .apart

theorem obeys_refreshGrant (e : Endpoint) {r : TokenRequest} (hr : r.grantType = "refresh_token") :
    (e.refreshGrant r).Obeys discipline (EndsAt r.refreshId?)
      (r.refreshId?.elim .apart .ready) := by
  unfold Endpoint.refreshGrant TokenRequest.require TokenRequest.refreshId?
  rw [if_pos hr]
  rcases filled? r.refreshToken with _ | refreshToken
  · rfl
  rcases filled? r.clientId with _ | clientId
  · rfl
  refine .ask nofun fun now => (obeys_refresh _ _ now).bind ?_
  rintro φ (tokens | e | _) h
  · exact h.ok _
  · exact h.error
  · exact h.overflow

theorem obeys_tokenRequest (e : Endpoint) (r : TokenRequest) :
    (e.exchange r).Obeys discipline (EndsAt r.refreshId?) (r.refreshId?.elim .apart .ready) := by
  by_cases hr : r.grantType = "refresh_token"
  · have hne : r.grantType ≠ "authorization_code" := hr ▸ by decide
    unfold Endpoint.exchange
    rw [if_neg hne, if_pos hr]
    exact obeys_afterRotation (obeys_refreshGrant e hr)
  · have hnone : r.refreshId? = none := if_neg hr
    unfold Endpoint.exchange
    rw [if_neg hr, hnone]
    split_ifs
    · exact obeys_afterRotation (obeys_codeGrant e r)
    · rfl

theorem fits_of_ends {α : Type} {r : Request} {φ : Phase} {o : Outcome r.Result} {o' : Outcome α}
    (h : φ.Ends o') (hr : r.Reports o o') : Fits r φ o := by
  have hlost : (o' = .overflow ∨ ∃ e, o' = .error e ∧ e ≠ .reuseDetected) →
      ¬ r.succeeds o ∧ o ≠ .error .reuseDetected := by
    rw [hr.succeeds]
    rintro (rfl | ⟨e, rfl, he⟩)
    · exact ⟨nofun, fun ho => absurd (hr.error ho) nofun⟩
    · exact ⟨nofun, fun ho => he (Outcome.error.inj (hr.error ho))⟩
  rcases φ
  case won => exact hr.succeeds.2 h
  case burned => exact hr.fails h
  case refused => exact h.imp fun m h => hr.fails h
  case found | torn | failed => exact hlost h
  case apart | revoking | ready | replayed | stored | beaten => exact h.elim

theorem fits_of_endsAt {α : Type} {r : Request} {x? : Option String} {φ : Phase}
    {o : Outcome r.Result} {o' : Outcome α} (h : EndsAt x? φ o') (hr : r.Reports o o') :
    Fits r φ o := by
  rcases x? with _ | x
  · exact (show φ = .apart from h) ▸ trivial
  · exact fits_of_ends h hr

theorem obeys_revoke (refreshToken : String) :
    (Endpoint.revoke refreshToken).Obeys discipline (fun φ _ => φ = start (.revoke refreshToken))
      (start (.revoke refreshToken)) := by
  unfold Endpoint.revoke
  split_ifs with h
  · rfl
  · have hstart : start (.revoke refreshToken) = .revoking (refreshIdOf refreshToken) := by
      simp [start, Request.refreshId?, Request.revokes?, h]
    refine .ofStore hstart ?_ fun _ => rfl
    rintro (_ | _) _
    · rfl
    · exact .ask nofun fun _ => rfl

theorem obeys_request (r : Request) : r.operation.Obeys discipline (Fits r) (start r) := by
  cases r with
  | issue => exact (only_issue _ _ _).of_only apart_issue fun _ _ => trivial
  | refresh r p now =>
    exact (obeys_refresh r p now).mono fun φ o h => fits_of_ends h (Request.reports_refresh o)
  | revoke refreshToken =>
    refine (obeys_revoke refreshToken).mono fun φ o h => ?_
    rw [h]
    simp only [start, Request.refreshId?, Request.revokes?, Option.elim_none]
    split_ifs <;> trivial
  | issueCode => exact (only_issueCode _ _ _).of_only apart_codeIssue fun _ _ => trivial
  | redeem => exact (only_redeem _ _ _).of_only apart_redemption fun _ _ => trivial
  | exchange e r =>
    exact (obeys_tokenRequest e r).mono fun φ o h => fits_of_endsAt h (Request.reports_exchange o)
  | token e r =>
    refine (obeys_token (obeys_tokenRequest e r)).mono ?_
    exact fun φ o ⟨_, h, hr⟩ => fits_of_endsAt h hr
  | userinfo =>
    refine (only_userinfo _).of_only ?_ fun _ _ => trivial
    rintro _ ⟨id, rfl⟩
    exact ⟨trivial, fun _ => rfl⟩
  | _ => exact .of_quiet (fun _ _ => trivial) (quiet_request rfl)

def regime : Regime Phase := ⟨discipline, start, Fits, obeys_request⟩

theorem key?_afterRead (x : String) :
    ∀ a : Except StoreError (Option TokenRecord), (afterRead x a).key? = some x
  | .error _ | .ok none => rfl
  | .ok (some r) => by
    dsimp only [afterRead]
    split_ifs <;> rfl

/-- A request keeps the refresh identifier that it has presented. -/
theorem key?_next (φ : Phase) (c : Call) (a : c.Answer) (h : discipline.allows φ c) :
    (discipline.next φ c a).key? = φ.key? := by
  cases c with
  | store c =>
    cases c with
    | getRecord x =>
      obtain rfl : φ = ready x := h
      exact key?_afterRead x a
    | createRecord r => rcases φ <;> rcases a <;> rfl
    | markRotated x => rcases φ <;> rcases a with e | _ | _ <;> rfl
    | revokeChain x => rcases h with rfl | ⟨c, rfl⟩ <;> rcases a <;> rfl
    | _ => rfl
  | _ => rfl

/-- A request that presents no refresh identifier stays in its phase. -/
theorem next_of_key?_none {φ : Phase} {c : Call} {a : c.Answer} (h : discipline.allows φ c)
    (hφ : φ.key? = none) : discipline.next φ c a = φ := by
  cases c with
  | store c =>
    cases c with
    | getRecord x =>
      obtain rfl : φ = ready x := h
      cases hφ
    | createRecord r => rcases φ <;> first | rfl | cases hφ
    | markRotated x => rcases φ <;> first | rfl | cases hφ
    | revokeChain x => rcases h with rfl | ⟨c, rfl⟩ <;> cases hφ
    | _ => rfl
  | _ => rfl

theorem key?_start (r : Request) : (start r).key? = r.refreshId? := by
  unfold start
  rcases r.refreshId? with _ | x
  · rcases r.revokes? with _ | y <;> rfl
  · rfl

theorem key?_phase {t : Thread} (h : regime.Lawful t) :
    (regime.phase t).key? = t.request.refreshId? :=
  h.1.keeps (P := fun φ => φ.key? = t.request.refreshId?)
    (fun φ c a hφ hc _ => (key?_next φ c a hc).trans hφ) (key?_start _)

theorem phase_of_refreshId?_none {t : Thread} (h : regime.Lawful t)
    (ht : t.request.refreshId? = none) : regime.phase t = start t.request := by
  have hkeep := h.1.keeps (P := fun φ => φ = start t.request) ?_ rfl
  · exact hkeep
  · rintro _ c a rfl hc _
    exact next_of_key?_none hc ((key?_start _).trans ht)

theorem revokes?_of_revoking {t : Thread} (h : regime.Lawful t) {x : String}
    (hx : regime.phase t = .revoking x) : t.request.revokes? = some x := by
  have ht : t.request.refreshId? = none := by
    rw [← key?_phase h, hx]
    rfl
  rw [phase_of_refreshId?_none h ht, start, ht] at hx
  rcases hr : t.request.revokes? with _ | y
  · simp [hr] at hx
  · simpa [hr] using hx

end Requests

end Chain

end TokenAuthority

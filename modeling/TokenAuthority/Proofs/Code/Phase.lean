import TokenAuthority.Proofs.Calls

/-!
# Phases of a redemption

How far a request has come that presents a code: it reads the code, marks it as used, and stores a
record for it. All that it checks it checks on the copy that it has read. The phase says which calls
may come next, and what the request can end with (`regime`). Other requests read no code and mark
none.
-/

namespace TokenAuthority

open Operation Time

/-- The code that a request presents. -/
def TokenRequest.code? (r : TokenRequest) : Option String :=
  if r.grantType = "authorization_code" then filled? r.code else none

def Request.code? : Request → Option String
  | redeem r _ _ => some r.code
  | exchange _ r | token _ r => r.code?
  | _ => none

/-- A record is what a code stands for. -/
structure AuthorizationCode.Grants (c : AuthorizationCode) (r : TokenRecord) : Prop where
  parent : r.parent = none
  clientId : r.clientId = c.clientId
  userId : r.userId = some c.userId
  scope : r.scope = " ".intercalate c.scopes

namespace Spending

inductive Phase where
  /-- No code was presented. -/
  | apart
  | ready (code : String)
  /-- The code was not used when it was read. -/
  | checked (c : AuthorizationCode)
  /-- The request has marked the code as used. -/
  | spent (c : AuthorizationCode)
  /-- The request has stored a record for the code. -/
  | paid (c : AuthorizationCode) (r : TokenRecord)
  /-- The code was used already, or another request marked it first. -/
  | refused (code : String)
  | failed (code : String)

def Allows (φ : Phase) : StoreCall → Prop
  | .getCode code => φ = .ready code
  | .markCodeUsed code => ∃ c, φ = .checked c ∧ c.code = code
  | .createRecord r => φ = .apart ∨ ∃ c, φ = .spent c ∧ c.Grants r
  | .createCode _ => φ = .apart
  | _ => True

namespace Phase

def key? : Phase → Option String
  | apart => none
  | ready code | refused code | failed code => some code
  | checked c | spent c | paid c _ => some c.code

def afterRead (code : String) : Except StoreError (Option AuthorizationCode) → Phase
  | .ok (some c) => if c.used then refused code else checked c
  | _ => failed code

def afterMark : Phase → Except StoreError Bool → Phase
  | checked c, .ok true => spent c
  | checked c, .ok false => refused c.code
  | checked c, .error _ => failed c.code
  | φ, _ => φ

def afterCreate (r : TokenRecord) : Phase → Except StoreError Unit → Phase
  | spent c, .ok _ => paid c r
  | spent c, .error _ => failed c.code
  | φ, _ => φ

def next (φ : Phase) : (c : StoreCall) → Except StoreError c.Result → Phase
  | .getCode code, a => afterRead code a
  | .markCodeUsed _, a => φ.afterMark a
  | .createRecord r, a => φ.afterCreate r a
  | _, _ => φ

/-- What a redemption can end with. -/
def Ends {α : Type} : Phase → Outcome α → Prop
  | ready _, o | checked _, o | failed _, o => ∀ a, o ≠ .ok a
  | refused _, o => ∃ m, o = .error (.invalidGrant m)
  | apart, _ | spent _, _ | paid _ _, _ => True

section Ends

variable {α β : Type} {φ : Phase}

theorem Ends.ok {a : α} (h : φ.Ends (.ok a)) (b : β) : φ.Ends (.ok b) := by
  rcases φ <;> simp_all [Ends]

theorem Ends.error {e : TokenError} (h : φ.Ends (.error e : Outcome α)) :
    φ.Ends (.error e : Outcome β) := by
  rcases φ <;> simp_all [Ends]

theorem Ends.overflow (h : φ.Ends (.overflow : Outcome α)) :
    φ.Ends (.overflow : Outcome β) := by
  rcases φ <;> simp_all [Ends]

end Ends

end Phase

def discipline : Discipline Phase := .ofStore Allows Phase.next

section Redemption

open Phase

theorem acceptRedemption_of_used {p : CodePolicy} {c : AuthorizationCode} {r : Codes.Redemption}
    {now : Instant} (h : c.used = true) :
    Codes.acceptRedemption p c r now
      = .error (.invalidGrant "authorization code already used") := by
  unfold Codes.acceptRedemption AuthorizationCode.redeemable
  simp [h]

def Checked (code : String) (φ : Phase) (o : Outcome AuthorizationCode) : Prop :=
  (∃ e, o = .error e ∧ φ.Ends o) ∨ ∃ c, o = .ok c ∧ φ = .checked c ∧ c.code = code

theorem obeys_check (p : CodePolicy) (r : Codes.Redemption) (now : Instant) :
    (Codes.check p r now).Obeys discipline (Checked r.code) (.ready r.code) := by
  unfold Codes.check
  refine .ofStore rfl (fun code hc => ?_) fun _ => .inl ⟨_, rfl, nofun⟩
  rcases code with _ | c
  · exact .inl ⟨_, rfl, nofun⟩
  show Obeys discipline _ _ (afterRead r.code (.ok (some c)))
  dsimp only [afterRead]
  split_ifs with hused
  · rw [acceptRedemption_of_used hused]
    exact .inl ⟨_, rfl, _, rfl⟩
  · exact .ofExcept (fun _ _ => .inr ⟨c, rfl, rfl, hc c rfl⟩) fun _ _ => .inl ⟨_, rfl, nofun⟩

def Redeemed (φ : Phase) (o : Outcome AuthorizationCode) : Prop :=
  φ.Ends o ∧ ∀ a, o = .ok a → ∃ c, φ = .spent c ∧ a = { c with used := true }

theorem obeys_redeem (p : CodePolicy) (r : Codes.Redemption) (now : Instant) :
    (Codes.redeem p r now).Obeys discipline Redeemed (.ready r.code) := by
  unfold Codes.redeem
  refine .attempt (obeys_check p r now) ?_ ?_ ?_
  · rintro φ c (⟨e, he, -⟩ | ⟨_, ⟨rfl⟩, rfl, hc⟩)
    · cases he
    refine .ofStore ⟨c, rfl, hc⟩ ?_ fun e => ⟨nofun, nofun⟩
    rintro (_ | _) _
    · exact .ask nofun fun _ => ⟨⟨_, rfl⟩, nofun⟩
    · refine .ask nofun fun _ => ⟨trivial, ?_⟩
      rintro _ ⟨rfl⟩
      exact ⟨c, rfl, rfl⟩
  · rintro φ e (⟨_, -, h⟩ | ⟨_, ⟨⟩, -⟩)
    exact .ask nofun fun _ => ⟨h.error, nofun⟩
  · rintro φ (⟨_, ⟨⟩, -⟩ | ⟨_, ⟨⟩, -⟩)

/-- Tokens for a code that the request has marked as used. -/
theorem obeys_issue (c : AuthorizationCode) (r : IssueRequest) (p : TokenPolicy) (now : Instant)
    (hclient : r.clientId = c.clientId) (huser : r.userId = some c.userId)
    (hscope : r.scope = " ".intercalate c.scopes) :
    (Issuance.issue r p now).Obeys discipline Ends (.spent c) := by
  unfold Issuance.issue Issuance.resolveClient
  rw [bind_assoc]
  refine .ofStore trivial (fun client hc => ?_) fun _ => trivial
  rcases client with _ | client
  · trivial
  refine obeys_mint (fun t ht => ?_) (fun _ _ => trivial) trivial
  obtain ⟨hparent, -, hclient', huser', hscope', -⟩ := ht
  have hgrants : c.Grants t.2 :=
    ⟨hparent, hclient'.trans ((hc client rfl).trans hclient), huser'.trans huser,
      hscope'.trans hscope⟩
  refine .ofStore (.inr ⟨c, rfl, hgrants⟩) (fun _ _ => ?_) fun _ => nofun
  exact .ask nofun fun _ => .ask nofun fun _ => .ask nofun fun _ => .ask nofun fun _ => trivial

theorem obeys_codeGrant (e : Endpoint) {r : TokenRequest}
    (hr : r.grantType = "authorization_code") :
    (e.codeGrant r).Obeys discipline Ends (r.code?.elim .apart .ready) := by
  unfold Endpoint.codeGrant TokenRequest.require TokenRequest.code?
  rw [if_pos hr]
  rcases filled? r.code with _ | code
  · trivial
  rcases filled? r.clientId with _ | clientId
  · exact nofun
  rcases filled? r.redirectUri with _ | redirectUri
  · exact nofun
  refine .ask nofun fun now => (obeys_redeem _ _ now).bind ?_
  rintro φ (redeemed | e | _) ⟨h, hok⟩
  · obtain ⟨c, rfl, rfl⟩ := hok redeemed rfl
    refine .ask nofun fun now => (obeys_issue c _ _ now rfl rfl rfl).bind ?_
    rintro φ (tokens | e | _) h
    · exact h.ok _
    · exact h.error
    · exact h.overflow
  · exact h.error
  · exact h.overflow

theorem apart_issue : ∀ c, StoreCall.OfIssue c → Allows .apart c ∧ ∀ a, next .apart c a = .apart
  | .getClient _, _ => ⟨trivial, fun _ => rfl⟩
  | .createRecord _, _ => ⟨.inl rfl, fun _ => rfl⟩

theorem apart_codeIssue : ∀ c, StoreCall.OfCodeIssue c →
    Allows .apart c ∧ ∀ a, next .apart c a = .apart
  | .getClient _, _ => ⟨trivial, fun _ => rfl⟩
  | .createCode _, _ => ⟨rfl, fun _ => rfl⟩

theorem apart_refresh : ∀ c, StoreCall.OfRefresh c →
    Allows .apart c ∧ ∀ a, next .apart c a = .apart
  | .getClient _, _ | .getRecord _, _ | .markRotated _, _ | .revokeRecord _, _
  | .revokeChain _, _ => ⟨trivial, fun _ => rfl⟩
  | .createRecord _, _ => ⟨.inl rfl, fun _ => rfl⟩

theorem obeys_refreshGrant (e : Endpoint) (r : TokenRequest) :
    (e.refreshGrant r).Obeys discipline (fun φ _ => φ = .apart) .apart := by
  unfold Endpoint.refreshGrant
  refine .ofExcept (fun token _ => .ofExcept (fun clientId _ => .ask nofun fun now => ?_)
    fun _ _ => rfl) fun _ _ => rfl
  refine Obeys.bind (P := fun φ _ => φ = .apart)
    ((only_refresh _ _ now).of_only apart_refresh fun _ _ => rfl) ?_
  rintro _ (tokens | e | _) rfl <;> rfl

theorem obeys_tokenRequest (e : Endpoint) (r : TokenRequest) :
    (e.exchange r).Obeys discipline Ends (r.code?.elim .apart .ready) := by
  by_cases hr : r.grantType = "authorization_code"
  · unfold Endpoint.exchange
    rw [if_pos hr]
    exact obeys_afterRotation (obeys_codeGrant e hr)
  · have hnone : r.code? = none := if_neg hr
    unfold Endpoint.exchange
    rw [if_neg hr, hnone]
    split_ifs
    · exact obeys_afterRotation ((obeys_refreshGrant e r).mono fun _ _ h => h ▸ trivial)
    · trivial

end Redemption

section Requests

open Phase

def start (r : Request) : Phase := r.code?.elim .apart .ready

def Fits (r : Request) (φ : Phase) (o : Outcome r.Result) : Prop :=
  match φ with
  | ready _ | checked _ | failed _ => ¬ r.succeeds o
  | refused _ => ∃ m, r.Fails (.invalidGrant m) o
  | apart | spent _ | paid _ _ => True

theorem fits_of_ends {α : Type} {r : Request} {φ : Phase} {o : Outcome r.Result} {o' : Outcome α}
    (h : φ.Ends o') (hr : r.Reports o o') : Fits r φ o := by
  rcases φ
  case ready | checked | failed => exact fun hs => h _ (hr.succeeds.1 hs).choose_spec
  case refused => exact h.imp fun m h => hr.fails h
  case apart | spent | paid => trivial

theorem obeys_request (r : Request) : r.operation.Obeys discipline (Fits r) (start r) := by
  cases r with
  | issue => exact (only_issue _ _ _).of_only apart_issue fun _ _ => trivial
  | refresh => exact (only_refresh _ _ _).of_only apart_refresh fun _ _ => trivial
  | revoke =>
    refine (only_revoke _).of_only ?_ fun _ _ => trivial
    rintro _ ⟨x, rfl⟩
    exact ⟨trivial, fun _ => rfl⟩
  | issueCode => exact (only_issueCode _ _ _).of_only apart_codeIssue fun _ _ => trivial
  | redeem r p now =>
    exact (obeys_redeem p r now).mono fun φ o h => fits_of_ends h.1 (Request.reports_redeem o)
  | exchange e r =>
    exact (obeys_tokenRequest e r).mono fun φ o h => fits_of_ends h (Request.reports_exchange o)
  | token e r =>
    refine (obeys_token (obeys_tokenRequest e r)).mono ?_
    exact fun φ o ⟨_, h, hr⟩ => fits_of_ends h hr
  | userinfo =>
    refine (only_userinfo _).of_only ?_ fun _ _ => trivial
    rintro _ ⟨id, rfl⟩
    exact ⟨trivial, fun _ => rfl⟩
  | _ => exact .of_quiet (fun _ _ => trivial) (quiet_request rfl)

def regime : Regime Phase := ⟨discipline, start, Fits, obeys_request⟩

theorem key?_afterRead (v : String) (c : AuthorizationCode) (hc : c.code = v) :
    (afterRead v (.ok (some c))).key? = some v := by
  dsimp only [afterRead]
  split_ifs
  · rfl
  · exact congrArg some hc

theorem key?_next (φ : Phase) (c : Call) (a : c.Answer) (h : discipline.allows φ c)
    (ha : c.Credible a) : (discipline.next φ c a).key? = φ.key? := by
  cases c with
  | store c =>
    cases c with
    | getCode v =>
      obtain rfl : φ = ready v := h
      rcases a with e | _ | c
      · rfl
      · rfl
      · exact key?_afterRead v c (ha c rfl)
    | markCodeUsed v => rcases φ <;> rcases a with e | _ | _ <;> rfl
    | createRecord r => rcases φ <;> rcases a <;> rfl
    | _ => rfl
  | _ => rfl

theorem key?_start (r : Request) : (start r).key? = r.code? := by
  unfold start
  rcases r.code? with _ | v <;> rfl

theorem key?_phase {t : Thread} (h : regime.Lawful t) :
    (regime.phase t).key? = t.request.code? :=
  h.1.keeps (P := fun φ => φ.key? = t.request.code?)
    (fun φ c a hφ hc ha => (key?_next φ c a hc ha).trans hφ) (key?_start _)

/-- A request that has been refused makes no call that would change that. -/
theorem next_refused (v : String) (c : Call) (a : c.Answer)
    (h : discipline.allows (refused v) c) : discipline.next (refused v) c a = refused v := by
  cases c with
  | store c =>
    cases c with
    | getCode v' => exact absurd (show refused v = ready v' from h) nofun
    | _ => rfl
  | _ => rfl

end Requests

end Spending

end TokenAuthority

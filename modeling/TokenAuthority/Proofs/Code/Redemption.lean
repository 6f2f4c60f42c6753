import TokenAuthority.Proofs.History.Invariant

/-!
# Redemptions

What a client has to show to redeem a code is settled by the request that the code was issued for
(`Codes.Allowed`). Whatever happens in between, a redemption succeeds if just that is shown, unless
the code has been redeemed; and one that does not succeed changes nothing (`redeemed_iff_allowed`).
By itself a redemption goes as what it reads says, or a call of the store fails (`Codes.Course`,
`ensures_redeem`).
-/

namespace TokenAuthority

open Operation StoreEvent Time

namespace Pkce

/-- The form of a verifier in RFC 7636. -/
structure VerifierForm (v : String) : Prop where
  least : 43 ≤ v.length
  most : v.length ≤ 128
  unreserved : ∀ c ∈ v.toList, isUnreserved c

theorem val_le_of_isUnreserved {c : Char} (h : isUnreserved c) : c.val ≤ 127 := by
  unfold isUnreserved Char.isAlphanum Char.isAlpha Char.isUpper Char.isLower Char.isDigit at h
  simp only [Bool.or_eq_true, Bool.and_eq_true, decide_eq_true_eq, ge_iff_le] at h
  rcases h with ((((h | h) | h) | h) | h)
  · rcases h with (⟨-, h⟩ | ⟨-, h⟩) | ⟨-, h⟩
    all_goals exact UInt32.le_trans h (by decide)
  all_goals
    subst h
    decide

theorem utf8ByteSize_ofList_of_ascii : ∀ {l : List Char}, (∀ c ∈ l, c.val ≤ 127) →
    (String.ofList l).utf8ByteSize = l.length
  | [], _ => rfl
  | c :: l, h => by
    obtain ⟨hc, hl⟩ := List.forall_mem_cons.1 h
    rw [String.ofList_cons, String.utf8ByteSize_append, String.utf8ByteSize_singleton,
      Char.utf8Size_eq_one_iff.2 hc, utf8ByteSize_ofList_of_ascii hl, List.length_cons,
      Nat.add_comm]

/-- Of unreserved characters the bytes are counted as the characters are. -/
theorem utf8ByteSize_of_unreserved {s : String} (h : ∀ c ∈ s.toList, isUnreserved c) :
    s.utf8ByteSize = s.length := by
  have := utf8ByteSize_ofList_of_ascii fun c hc => val_le_of_isUnreserved (h c hc)
  rwa [String.ofList_toList, String.length_toList] at this

theorem checkVerifier_eq_ok_iff {v : String} : checkVerifier v = .ok () ↔ VerifierForm v := by
  unfold checkVerifier
  dsimp only
  split_ifs with hlength hall
  · refine ⟨nofun, fun h => ?_⟩
    have := utf8ByteSize_of_unreserved h.unreserved
    have := And.intro h.least h.most
    omega
  · have hall : ∀ c ∈ v.toList, isUnreserved c := List.all_eq_true.1 hall
    have := utf8ByteSize_of_unreserved hall
    exact ⟨fun _ => ⟨by omega, by omega, hall⟩, fun _ => rfl⟩
  · exact ⟨nofun, fun h => absurd (List.all_eq_true.2 h.unreserved) hall⟩

end Pkce

namespace Codes

variable {p : CodePolicy} {q : CodeRequest} {client : Client} {c : AuthorizationCode}
  {r : Redemption} {now : Instant}

theorem acceptRedemption_eq_ok_iff : acceptRedemption p c r now = .ok () ↔
    c.used = false ∧ now < c.expiresAt ∧ c.clientId = r.clientId ∧ c.redirectUri = r.redirectUri ∧
      acceptVerifier p c r.verifier = .ok () := by
  have hredeem : c.redeemable now r.clientId r.redirectUri ↔ c.used = false ∧ now < c.expiresAt ∧
      c.clientId = r.clientId ∧ c.redirectUri = r.redirectUri := by
    have hexpired : c.expired now = false ↔ now < c.expiresAt := by
      unfold AuthorizationCode.expired
      rw [decide_eq_false_iff_not]
      exact Decidable.not_not
    simp [AuthorizationCode.redeemable, hexpired, and_assoc]
  unfold acceptRedemption
  split_ifs with h
  · obtain ⟨hused, hbefore, hclient, huri⟩ := hredeem.1 h
    simp [hused, hbefore, hclient, huri]
  all_goals
    refine ⟨nofun, fun ⟨hused, hbefore, hclient, huri, _⟩ => ?_⟩
    exact absurd (hredeem.2 ⟨hused, hbefore, hclient, huri⟩) h

theorem acceptVerifier_eq_ok_iff {verifier : Option String} :
    acceptVerifier p c verifier = .ok () ↔ ∀ challenge, c.challenge = some challenge →
      ∃ v, verifier = some v ∧ (p.strictFormat → Pkce.VerifierForm v) ∧
        Pkce.challengeOf v (c.method.getD .plain) = challenge := by
  unfold acceptVerifier
  rcases c.challenge with _ | challenge
  · simp
  rcases verifier with _ | v
  · simp
  simp only [Option.some.injEq, exists_eq_left', forall_eq']
  rw [← Pkce.checkVerifier_eq_ok_iff]
  have hverifies : Pkce.verifies (c.method.getD .plain) challenge v ↔
      Pkce.challengeOf v (c.method.getD .plain) = challenge := beq_iff_eq
  rw [← hverifies]
  rcases p.strictFormat
  · simp
  · rcases Pkce.checkVerifier v with e | _ <;> simp [Bind.bind, Except.bind]

theorem scopes_of_accept {t : ScopeSet × Option PkceMethod} (h : accept p client q = .ok t) :
    t.1 = ScopeSet.parse q.scope ∧ acceptMethod p client q = .ok t.2 := by
  unfold accept at h
  dsimp only at h
  split_ifs at h
  rcases hm : acceptMethod p client q with e | m <;> rw [hm] at h <;> cases h
  exact ⟨rfl, rfl⟩

theorem checkVerifier_error {v : String} {e : TokenError} (h : Pkce.checkVerifier v = .error e) :
    ∃ m, e = .invalidGrant m := by
  unfold Pkce.checkVerifier at h
  dsimp only at h
  split_ifs at h <;> cases h
  · exact ⟨_, rfl⟩
  · exact ⟨_, rfl⟩

theorem acceptVerifier_error {verifier : Option String} {e : TokenError}
    (h : acceptVerifier p c verifier = .error e) : ∃ m, e = .invalidGrant m := by
  unfold acceptVerifier at h
  split at h
  · cases h
  · cases h
    exact ⟨_, rfl⟩
  rename_i challenge v _
  have hlast : ∀ {e}, (if Pkce.verifies (c.method.getD .plain) challenge v then .ok ()
      else .error (.invalidGrant "PKCE verification failed") : Except TokenError Unit) = .error e →
      ∃ m, e = .invalidGrant m := by
    intro e h
    split_ifs at h
    cases h
    exact ⟨_, rfl⟩
  rcases hs : p.strictFormat <;> rw [hs] at h
  · exact hlast h
  · rcases hv : Pkce.checkVerifier v with e' | _ <;> rw [hv] at h
    · cases h
      exact checkVerifier_error hv
    · exact hlast h

theorem acceptRedemption_error {e : TokenError} (h : acceptRedemption p c r now = .error e) :
    ∃ m, e = .invalidGrant m := by
  unfold acceptRedemption at h
  split_ifs at h
  · exact acceptVerifier_error h
  all_goals
    cases h
    exact ⟨_, rfl⟩

/-- The code tells what the user has consented to. -/
structure Consented (q : CodeRequest) (c : AuthorizationCode) : Prop where
  userId : c.userId = q.userId
  scopes : c.scopes = (ScopeSet.parse q.scope).scopes
  nonce : c.nonce = filled? q.nonce

/-- What the checks of a redemption give if the store works. -/
def checked (p : CodePolicy) (r : Redemption) (now : Instant) (s : Store) :
    Except TokenError AuthorizationCode :=
  match s.code? r.code with
  | none => .error (.invalidGrant "unknown authorization code")
  | some c => (acceptRedemption p c r now).map fun _ => c

/-- How a redemption can go. -/
inductive Course (G : Reply → Prop) (p : CodePolicy) (r : Redemption) (now : Instant) (w : World) :
    Outcome AuthorizationCode → World → Prop
  | redeemed {c : AuthorizationCode} {w' : World} (hc : checked p r now w.store = .ok c)
    (hw : w.Leaves (w.store.markCodeUsed r.code).2 w') :
    Course G p r now w (.ok { c with used := true }) w'
  | refused {e : TokenError} {w' : World} (he : checked p r now w.store = .error e)
    (hw : w.Leaves w.store w') : Course G p r now w (.error e) w'
  /-- A call fails before anything is changed. -/
  | failed {d : String} {w' : World} (hG : Fallible G) (hw : w.Leaves w.store w') :
    Course G p r now w (.error (.serverError d)) w'

theorem checked_error {s : Store} {e : TokenError} (h : checked p r now s = .error e) :
    ∃ m, e = .invalidGrant m := by
  unfold checked at h
  split at h
  · cases h
    exact ⟨_, rfl⟩
  · rename_i c _
    rcases ha : acceptRedemption p c r now with e' | _ <;> rw [ha] at h <;> cases h
    exact acceptRedemption_error ha

theorem checked_ok {s : Store} (h : checked p r now s = .ok c) :
    s.code? r.code = some c ∧ acceptRedemption p c r now = .ok () := by
  unfold checked at h
  rcases hc : s.code? r.code with _ | d <;> rw [hc] at h
  · cases h
  · dsimp only at h
    rcases ha : acceptRedemption p d r now with e' | _ <;> rw [ha] at h <;> cases h
    exact ⟨rfl, ha⟩

variable {G : Reply → Prop} {w : World}

theorem ensures_check : (check p r now).Ensures G w fun o w' _ => w' = w ∧
    (o = .ofExcept (checked p r now w.store) ∨ Fallible G ∧ ∃ d, o = .error (.serverError d)) := by
  unfold check checked
  refine .ofStore rfl (fun hG e => ⟨rfl, .inr ⟨hG, _, rfl⟩⟩) ?_
  rcases w.store.code? r.code with _ | c
  · exact ⟨rfl, .inl rfl⟩
  dsimp only
  refine .ofExcept (fun _ ha => ⟨rfl, .inl ?_⟩) fun e ha => ⟨rfl, .inl ?_⟩
  · rw [ha]
    rfl
  · rw [ha]
    rfl

theorem markCodeUsed_of_checked {s : Store} (h : checked p r now s = .ok c) :
    (s.markCodeUsed r.code).1 = true := by
  obtain ⟨hc, ha⟩ := checked_ok h
  rw [Store.markCodeUsed_eq, hc]
  dsimp only
  rw [if_neg (by simp [(acceptRedemption_eq_ok_iff.1 ha).1])]

theorem ensures_redeem : (redeem p r now).Ensures G w fun o w' _ => Course G p r now w o w' := by
  unfold redeem
  refine .attempt ensures_check ?_ ?_ ?_
  · rintro c w past ⟨rfl, h | ⟨-, d, ⟨⟩⟩⟩
    have hc : checked p r now w.store = .ok c := by
      rcases h' : checked p r now w.store with e | c' <;> rw [h'] at h <;> cases h
      rfl
    refine .ofStore (r := true) ?_ (fun hG e => .failed hG ⟨rfl, rfl⟩) ?_
    · exact congrArg Except.ok (markCodeUsed_of_checked hc)
    · exact .count (.redeemed hc ⟨rfl, rfl⟩)
  · rintro e w past ⟨rfl, h⟩
    refine .count ?_
    rcases h with h | ⟨hG, d, ⟨⟩⟩
    · refine Course.refused ?_ ⟨rfl, rfl⟩
      rcases h' : checked p r now w.store with e' | c' <;> rw [h'] at h <;> cases h
      rfl
    · exact Course.failed hG ⟨rfl, rfl⟩
  · rintro w' past ⟨-, h | ⟨-, d, ⟨⟩⟩⟩
    rcases h' : checked p r now w.store with e' | c' <;> rw [h'] at h <;> cases h

end Codes

namespace Store

theorem KeepsCodes.trans {s s' s'' : Store} (h : s.KeepsCodes s') (h' : s'.KeepsCodes s'') :
    s.KeepsCodes s'' := by
  intro v c hc
  obtain ⟨u, hu, hused⟩ := h v c hc
  obtain ⟨u', hu', hused'⟩ := h' v _ hu
  exact ⟨u', hu', fun h => hused' (hused h)⟩

end Store

theorem World.keepsCodes_perform (reply : Reply) (w : World) (c : Call) :
    w.store.KeepsCodes (w.perform reply c).2.store := by
  cases c with
  | store c =>
    unfold World.perform
    rcases reply.storeFailure with _ | e
    · exact w.store.keepsCodes_perform c
    · exact .of_codes_eq rfl
  | generateKey =>
    unfold World.perform
    rcases reply.keyFailure with _ | e <;> exact .of_codes_eq rfl
  | _ => exact .of_codes_eq rfl

namespace StoreEvent

/-- The code that a call has marked as used. -/
def marks? : StoreEvent → Option String
  | ⟨.markCodeUsed v, .ok true⟩ => some v
  | _ => none

theorem marks?_eq_some_iff {v : String} : ∀ {e : StoreEvent}, e.marks? = some v ↔ e = marked v
  | ⟨.markCodeUsed w, .ok true⟩ => by
    constructor
    · rintro ⟨⟩
      rfl
    · rintro ⟨⟩
      rfl
  | ⟨.markCodeUsed _, .ok false⟩ | ⟨.markCodeUsed _, .error _⟩ | ⟨.getClient _, _⟩
  | ⟨.getUser _, _⟩ | ⟨.getUserByEmail _, _⟩ | ⟨.createCode _, _⟩ | ⟨.getCode _, _⟩
  | ⟨.createRecord _, _⟩ | ⟨.getRecord _, _⟩ | ⟨.markRotated _, _⟩ | ⟨.revokeRecord _, _⟩
  | ⟨.revokeByRefreshId _, _⟩ | ⟨.revokeChain _, _⟩ => ⟨nofun, nofun⟩

end StoreEvent

namespace System

theorem keepsCodes_move (s : System) (m : Move) :
    s.world.store.KeepsCodes (s.move m).world.store := by
  unfold move
  split
  · exact .of_codes_eq rfl
  · split
    · exact .of_codes_eq rfl
    · rename_i t _
      obtain ⟨r, past, o | ⟨c, next⟩⟩ := t
      · exact .of_codes_eq rfl
      · exact s.world.keepsCodes_perform _ c
  all_goals exact .of_codes_eq rfl

/-- A code that has been used stays so, whatever happens. -/
theorem keepsCodes_run : ∀ (moves : List Move) (s : System),
    s.world.store.KeepsCodes (s.run moves).world.store
  | [], _ => .of_codes_eq rfl
  | m :: moves, s => (s.keepsCodes_move m).trans (keepsCodes_run moves (s.move m))

/-- No request has redeemed a code. -/
def Unspent (s : System) (v : String) : Prop := ∀ t ∈ s.threads, marked v ∉ t.calls

instance (s : System) (v : String) : Decidable (s.Unspent v) :=
  decidable_of_iff (∀ t ∈ s.threads, v ∉ t.calls.filterMap marks?) <| by
    simp only [Unspent, List.mem_filterMap, marks?_eq_some_iff, exists_eq_right]

end System

open Codes

theorem Codes.course_redeem (p : CodePolicy) (r : Redemption) (now : Instant) (w : World)
    {replies : Nat → Reply} (hreplies : ∀ n, (replies n).healthy) :
    Course (fun reply => reply.healthy) p r now w (World.complete (redeem p r now) w replies).1
      (World.complete (redeem p r now) w replies).2 := ensures_redeem.complete hreplies

theorem checked_of_used (p : CodePolicy) {r : Redemption} (now : Instant) {s : Store}
    {c : AuthorizationCode} (hc : s.code? r.code = some c) (hused : c.used = true) :
    checked p r now s = .error (.invalidGrant "authorization code already used") := by
  unfold checked
  rw [hc]
  dsimp only
  rw [Spending.acceptRedemption_of_used hused]
  rfl

def Sample.redemption (verifier : Option String) : Redemption :=
  ⟨code 1, "c1", "https://a/cb", verifier⟩

end TokenAuthority

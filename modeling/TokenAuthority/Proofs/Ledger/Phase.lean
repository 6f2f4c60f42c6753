import TokenAuthority.Proofs.Calls

/-!
# The ledger of a request

The calls of a request that change a mark in the store, or put something there, are paired with
calls that count them. In between the two the request owes the difference: its balance. Most
operations leave the balance as it is (`Operation.Level`). An exchange of a refresh token does not:
it is counted by what it has ended with, and until then owes just that (`Owes`). In the end no
request owes anything (`regime`).

All of this is so only as long as the store works. When a record could not be marked, what the
request does from then on is not followed any more.
-/

namespace TokenAuthority

open Operation Time

variable {α β : Type}

/-- What can be told both by the store and by the counters. -/
inductive Account where
  | codes
  | used
  | roots (kind : TokenKind)
  | rotated
  | revoked
  | reuses
  deriving DecidableEq

abbrev Balance : Type := Account → Int

namespace Balance

def zero : Balance := fun _ => 0

def only (a : Account) (n : Int) : Balance := fun b => if b = a then n else 0

def plus (b c : Balance) : Balance := fun a => b a + c a

def minus (b c : Balance) : Balance := fun a => b a - c a

@[simp]
theorem plus_minus (b c : Balance) : (b.plus c).minus c = b :=
  funext fun a => Int.add_sub_cancel (b a) (c a)

@[simp]
theorem plus_zero (b : Balance) : b.plus zero = b := funext fun a => Int.add_zero (b a)

@[simp]
theorem minus_zero (b : Balance) : b.minus zero = b := funext fun a => Int.sub_zero (b a)

end Balance

open Balance (zero only plus_zero minus_zero plus_minus)

/-- A root stands for one token of each kind. -/
def Account.root : Balance
  | .roots _ => 1
  | _ => 0

/-- What a call of the store adds to the accounts. -/
def StoreCall.gain : (c : StoreCall) → Except StoreError c.Result → Balance
  | .createCode _, .ok _ => only .codes 1
  | .markCodeUsed _, .ok true => only .used 1
  | .createRecord r, .ok _ => if r.parent = none then Account.root else zero
  | .markRotated _, .ok true => only .rotated 1
  | .revokeByRefreshId _, .ok true => only .revoked 1
  | .revokeChain _, .ok n => only .revoked (n : Nat)
  | _, _ => zero

/-- What counting adds to the accounts. -/
def Counter.tally : Counter → Nat → Balance
  | .codes .issued, n => only .codes n
  | .codes .redeemed, n => only .used n
  | .issued kind _, n => only (.roots kind) n
  | .refreshed .success, n => only .rotated n
  | .revoked _, n => only .revoked n
  | .refreshed .reuseDetected, n => only .reuses n
  | .reuses, n => only .reuses (-n)
  | _, _ => zero

namespace Ledger

open StoreCall

/-- What a request owes; none if it is not followed any more. -/
abbrev Phase : Type := Option Balance

def Allows : Phase → Call → Prop
  | some _, .store (.createCode c) => c.used = false
  | some _, .store (.createRecord r) => r.live = true
  | some _, .store (.revokeRecord _) => False
  | _, _ => True

def next : Phase → (c : Call) → c.Answer → Phase
  | some _, .store (.markRotated _), .error _ => none
  | some b, .store c, a => some (b.plus (c.gain a))
  | some b, .count counter n, _ => some (b.minus (counter.tally n))
  | φ, _, _ => φ

def discipline : Discipline Phase := ⟨Allows, next⟩

/-- A request is not followed any more, or owes this. -/
def At (b : Balance) (φ : Phase) : Prop := φ = none ∨ φ = some b

end Ledger

open Ledger (At)

/-- An operation leaves what is owed. -/
class Operation.Level (x : Operation α) : Prop where
  obeys : ∀ b, x.Obeys Ledger.discipline (fun φ _ => At b φ) (some b)

namespace Operation

/-- Whoever is not followed any more may do anything. -/
theorem obeys_unfollowed : ∀ x : Operation α,
    x.Obeys Ledger.discipline (fun φ _ => φ = none) none
  | done _ => rfl
  | call c next => by
    have hnext : ∀ a, Ledger.next none c a = none := fun a => by cases c <;> rfl
    refine ⟨by cases c <;> trivial, fun a _ => ?_⟩
    show (next a).Obeys _ _ (Ledger.next none c a)
    rw [hnext a]
    exact obeys_unfollowed (next a)

/-- What follows an operation need only be followed as long as the request is. -/
theorem Obeys.followed {b : Balance} {Q : Ledger.Phase → Outcome β → Prop} {x : Operation α}
    {f : α → Operation β} (hx : x.Obeys Ledger.discipline (fun φ _ => At b φ) (some b))
    (hnone : ∀ o, Q none o) (herror : ∀ e, Q (some b) (.error e)) (hoverflow : Q (some b) .overflow)
    (hf : ∀ a, (f a).Obeys Ledger.discipline Q (some b)) :
    (x >>= f).Obeys Ledger.discipline Q (some b) := by
  refine hx.bind ?_
  rintro φ o (rfl | rfl)
  · rcases o with a | e | _
    · exact (obeys_unfollowed (f a)).mono fun φ o h => h ▸ hnone o
    · exact hnone _
    · exact hnone _
  · rcases o with a | e | _
    · exact hf a
    · exact herror e
    · exact hoverflow

theorem level_bind {x : Operation α} [hx : Level x] {f : α → Operation β}
    (hf : ∀ a, Level (f a)) : Level (x >>= f) where
  obeys b := (hx.obeys b).followed (fun _ => .inl rfl) (fun _ => .inr rfl) (.inr rfl)
    fun a => (hf a).obeys b

instance (a : α) : Level (pure a : Operation α) := ⟨fun _ => .inr rfl⟩

instance (e : TokenError) : Level (fail e : Operation α) := ⟨fun _ => .inr rfl⟩

instance : Level (overflow : Operation α) := ⟨fun _ => .inr rfl⟩

instance (x : Operation α) (f : α → Operation β) [Level x] [hf : ∀ a, Level (f a)] :
    Level (x >>= f) := level_bind hf

instance (x : Operation α) (f : α → β) [Level x] : Level (f <$> x) := by
  rw [map_eq_pure_bind]
  infer_instance

instance (x : Operation α) [hx : Level x] : Level x.attempt where
  obeys b := by
    refine (obeys_attempt x _).2 ((hx.obeys b).mono ?_)
    rintro φ (a | e | _) h <;> exact h

instance (p : Prop) [Decidable p] (x y : Operation α) [Level x] [Level y] :
    Level (if p then x else y) := by
  split_ifs <;> infer_instance

instance (x : Except TokenError α) : Level (ofExcept x) := by
  rcases x with e | a
  · exact inferInstanceAs (Level (fail e))
  · exact inferInstanceAs (Level (pure a))

instance (now : Instant) (lifetime : Duration) : Level (after now lifetime) := by
  unfold after
  rcases now.after lifetime with _ | t
  · exact inferInstanceAs (Level overflow)
  · exact inferInstanceAs (Level (pure t))

/-- A call that is none of the store and counts nothing. -/
theorem level_ask {c : Call} (hc : ∀ b a, Ledger.next (some b) c a = some b)
    (hallows : ∀ b, Ledger.Allows (some b) c) : Level (ask c) where
  obeys b := ⟨hallows b, fun a _ => .inr (hc b a)⟩

instance : Level (ask .clock) := level_ask (fun _ _ => rfl) fun _ => trivial

instance : Level (ask .ring) := level_ask (fun _ _ => rfl) fun _ => trivial

instance (n : Nat) : Level (ask (.random n)) := level_ask (fun _ _ => rfl) fun _ => trivial

instance (algorithm : Algorithm) (now : Timestamp) : Level (ask (.generateKey algorithm now)) :=
  level_ask (fun _ _ => rfl) fun _ => trivial

instance (key : SigningKey) (now : Timestamp) : Level (ask (.installKey key now)) :=
  level_ask (fun _ _ => rfl) fun _ => trivial

instance (key : SigningKey) (now : Timestamp) : Level (ask (.rotateKey key now)) :=
  level_ask (fun _ _ => rfl) fun _ => trivial

instance : Level (count .rotations) :=
  level_ask (fun b _ => congrArg some (minus_zero b)) fun _ => trivial

instance : Level (count (.codes .rejected)) :=
  level_ask (fun b _ => congrArg some (minus_zero b)) fun _ => trivial

instance : Level (count (.codes .overtaken)) :=
  level_ask (fun b _ => congrArg some (minus_zero b)) fun _ => trivial

end Operation

/-- A call of the store that adds nothing to the accounts. -/
def StoreCall.Reads : StoreCall → Prop
  | getClient _ | getUser _ | getUserByEmail _ | getCode _ | getRecord _ => True
  | _ => False

namespace Operation

theorem next_reads {c : StoreCall} (hc : c.Reads) (b : Balance)
    (a : Except StoreError c.Result) : Ledger.next (some b) (.store c) a = some b := by
  cases c with
  | getClient | getUser | getUserByEmail | getCode | getRecord => exact congrArg some (plus_zero b)
  | _ => exact hc.elim

theorem Obeys.reads {b : Balance} {Q : Ledger.Phase → Outcome β → Prop} {c : StoreCall}
    {f : c.Result → Operation β} (hc : c.Reads)
    (hf : ∀ r, (f r).Obeys Ledger.discipline Q (some b))
    (herror : ∀ e, Q (some b) (.error (.ofStore e))) :
    (Operation.ofStore c >>= f).Obeys Ledger.discipline Q (some b) := by
  have hnext := fun a => next_reads hc b a
  refine .ofStore (by cases c <;> trivial) (fun r _ => ?_) fun e => ?_
  · show (f r).Obeys _ _ (Ledger.next (some b) (.store c) (.ok r))
    rw [hnext]
    exact hf r
  · show Q (Ledger.next (some b) (.store c) (.error e)) _
    rw [hnext]
    exact herror e

theorem level_reads {c : StoreCall} (hc : c.Reads) {f : c.Result → Operation β}
    (hf : ∀ r, Level (f r)) : Level (ofStore c >>= f) where
  obeys b := .reads hc (fun r => (hf r).obeys b) fun _ => .inr rfl

end Operation

section Requests

instance (payload : Json) : Level (Signing.sign payload) := by
  unfold Signing.sign
  infer_instance

instance (claims : Claims) (lifetime : Duration) : Level (Signing.signAccess claims lifetime) := by
  unfold Signing.signAccess
  infer_instance

instance (claims : Claims) (lifetime : Duration) (accessToken : Option String) :
    Level (Signing.signId claims lifetime accessToken) := by
  unfold Signing.signId
  infer_instance

instance (type : Jws.ClaimType) (token : String) : Level (Signing.verify type token) := by
  unfold Signing.verify
  infer_instance

instance (algorithm : Algorithm) (now : Timestamp) : Level (Signing.generateKey algorithm now) := by
  unfold Signing.generateKey
  refine level_bind fun key => ?_
  split <;> infer_instance

instance (now : Timestamp) : Level (Signing.installKey now) := by
  unfold Signing.installKey
  refine level_bind fun ring => ?_
  split <;> infer_instance

instance (now : Timestamp) : Level (Signing.rotateIfDue now) := by
  unfold Signing.rotateIfDue
  infer_instance

instance (m : Issuance.Mint) (p : TokenPolicy) (now : Instant) :
    Level (Issuance.mint m p now) := by
  unfold Issuance.mint
  dsimp only
  infer_instance

instance (clientId : String) : Level (Issuance.resolveClient clientId) := by
  unfold Issuance.resolveClient
  refine level_reads (c := .getClient clientId) trivial fun client => ?_
  split <;> infer_instance

/-- What follows a minting finds a live record with the parent that was asked for. -/
theorem obeys_mint_ledger {b : Balance} {Q : Ledger.Phase → Outcome α → Prop}
    {m : Issuance.Mint} {p : TokenPolicy} {now : Instant} {f : TokenSet × TokenRecord → Operation α}
    (hnone : ∀ o, Q none o)
    (herror : ∀ e, Outcome.Minted m (.error e) → Q (some b) (.error e))
    (hoverflow : Q (some b) .overflow)
    (hf : ∀ t r, r.parent = m.parent → r.live = true →
      (f (t, r)).Obeys Ledger.discipline Q (some b)) :
    (Issuance.mint m p now >>= f).Obeys Ledger.discipline Q (some b) := by
  refine ((Level.obeys b).both (quiet_mint m p now)).bind ?_
  rintro φ o ⟨rfl | rfl, ho⟩
  · rcases o with a | e | _
    · exact (obeys_unfollowed (f a)).mono fun φ o h => h ▸ hnone o
    · exact hnone _
    · exact hnone _
  · rcases o with ⟨t, r⟩ | e | _
    · exact hf t r ho.1 ho.2.1
    · exact herror e ho
    · exact hoverflow

/-- A root is counted as one token of each kind. -/
theorem root_counted (b : Balance) (algorithm : Algorithm) :
    (((b.plus Account.root).minus (Counter.tally (.issued .access algorithm) 1)).minus
      (Counter.tally (.issued .id algorithm) 1)).minus
        (Counter.tally (.issued .refresh algorithm) 1) = b := by
  funext a
  cases a with
  | roots kind =>
    cases kind <;> simp [Balance.plus, Balance.minus, Account.root, Counter.tally, only]
  | _ => simp [Balance.plus, Balance.minus, Account.root, Counter.tally, only]

instance (r : IssueRequest) (p : TokenPolicy) (now : Instant) :
    Level (Issuance.issue r p now) where
  obeys b := by
    unfold Issuance.issue
    refine (Level.obeys b).followed (fun _ => .inl rfl) (fun _ => .inr rfl) (.inr rfl)
      fun client => ?_
    refine obeys_mint_ledger (fun _ => .inl rfl) (fun _ _ => .inr rfl) (.inr rfl)
      fun t record hparent hlive => ?_
    refine .ofStore hlive (fun _ _ => ⟨trivial, fun ring _ => ⟨trivial, fun _ _ => ⟨trivial,
      fun _ _ => ⟨trivial, fun _ _ => .inr ?_⟩⟩⟩⟩) fun e => .inr (congrArg some (plus_zero b))
    have hgain : StoreCall.gain (.createRecord record) (.ok ()) = Account.root := if_pos hparent
    exact congrArg some (hgain ▸ root_counted b ring.algorithm)

instance (p : CodePolicy) (r : CodeRequest) (now : Instant) : Level (Codes.issue p r now) := by
  unfold Codes.issue
  refine level_reads (c := .getClient r.clientId) trivial fun client => ?_
  split
  · infer_instance
  · refine level_bind fun accepted => level_bind fun bytes => level_bind fun expiresAt =>
      ⟨fun b => ?_⟩
    refine .ofStore rfl (fun _ _ => ⟨trivial, fun _ _ => .inr ?_⟩) fun e => .inr ?_
    · exact congrArg some (plus_minus b _)
    · exact congrArg some (plus_zero b)

instance (p : CodePolicy) (r : Codes.Redemption) (now : Instant) :
    Level (Codes.check p r now) := by
  unfold Codes.check
  refine level_reads (c := .getCode r.code) trivial fun code => ?_
  split <;> infer_instance

instance (p : CodePolicy) (r : Codes.Redemption) (now : Instant) :
    Level (Codes.redeem p r now) := by
  unfold Codes.redeem
  refine level_bind fun checked => ?_
  split
  · infer_instance
  · refine ⟨fun b => .ofStore trivial ?_ fun e => .inr (congrArg some (plus_zero b))⟩
    rintro (_ | _) _
    · exact ⟨trivial, fun _ _ => .inr (congrArg some ((minus_zero _).trans (plus_zero b)))⟩
    · exact ⟨trivial, fun _ _ => .inr (congrArg some (plus_minus b _))⟩

instance (refreshToken : String) : Level (Endpoint.revoke refreshToken) := by
  unfold Endpoint.revoke
  split
  · infer_instance
  · refine ⟨fun b => .ofStore trivial ?_ fun e => .inr (congrArg some (plus_zero b))⟩
    rintro (_ | _) _
    · exact .inr (congrArg some (plus_zero b))
    · exact ⟨trivial, fun _ _ => .inr (congrArg some (plus_minus b _))⟩

instance (accessToken : String) : Level (Endpoint.userinfo accessToken) := by
  unfold Endpoint.userinfo
  refine level_bind fun claims => level_reads (c := .getUser claims.sub) trivial fun user => ?_
  split <;> infer_instance

instance : Level Endpoint.publicKeys := by
  unfold Endpoint.publicKeys
  infer_instance

end Requests

section Rotation

/-- What an exchange that has ended is counted as, it owes. -/
def Ledger.Owes (b : Balance) (φ : Ledger.Phase) (o : Outcome TokenSet) : Prop :=
  match o with
  | .ok t => At (b.plus (Counter.tally (.refreshed (Rotation.resultOf (.ok t))) 1)) φ
  | .error e => At (b.plus (Counter.tally (.refreshed (Rotation.resultOf (.error e))) 1)) φ
  | .overflow => At b φ

open Ledger (Owes)

variable {b : Balance}

theorem owes_none (b : Balance) (o : Outcome TokenSet) : Owes b none o := by
  rcases o with t | e | _
  · exact .inl rfl
  · exact .inl rfl
  · exact .inl rfl

/-- An error that tells of no reuse is counted for no account. -/
theorem owes_error {e : TokenError} (he : e ≠ .reuseDetected) : Owes b (some b) (.error e) := by
  refine .inr (congrArg some ?_)
  unfold Rotation.resultOf
  split
  · contradiction
  · rename_i heq
    exact absurd (Except.error.inj heq) he
  · exact (plus_zero b).symm
  · exact (plus_zero b).symm
  · exact (plus_zero b).symm

/-- Records that are revoked are counted as such, and a reuse besides. -/
theorem reuse_counted (b : Balance) (n : Nat) :
    ((b.plus (only .revoked n)).minus (Counter.tally (.revoked .reuseDetected) n)).minus
      (Counter.tally .reuses 1) = b.plus (only .reuses 1) := by
  have hrevoked : (b.plus (only .revoked n)).minus (Counter.tally (.revoked .reuseDetected) n) =
    b := plus_minus b _
  rw [hrevoked]
  funext a
  cases a <;> simp [Balance.plus, Balance.minus, Counter.tally, only]

theorem obeys_burn_ledger (record : TokenRecord) :
    (Rotation.burn record).Obeys Ledger.discipline (Owes b) (some b) := by
  unfold Rotation.burn
  refine .tryStore trivial ?_
  rintro (e | n) _
  · show Owes b (some (b.plus zero)) _
    rw [plus_zero]
    exact owes_error nofun
  · exact ⟨trivial, fun _ _ => ⟨trivial, fun _ _ => .inr (congrArg some (reuse_counted b n))⟩⟩

theorem obeys_succeed_ledger {record child : TokenRecord} (tokens : TokenSet) {x : String}
    (hparent : child.parent = some x) (hlive : child.live = true) :
    (Rotation.succeed record child tokens).Obeys Ledger.discipline (Owes b) (some b) := by
  have hgain : ∀ a, StoreCall.gain (.createRecord child) a = zero := by
    rintro (e | _)
    · rfl
    · exact if_neg (by simp [hparent])
  have hstored : ∀ a, Ledger.next (some b) (.store (.createRecord child)) a = some b :=
    fun a => congrArg some (hgain a ▸ plus_zero b)
  unfold Rotation.succeed
  refine .ofStore hlive (fun _ _ => ?_) fun e => ?_
  · show Obeys _ _ _ (Ledger.next (some b) (.store (.createRecord child)) (.ok ()))
    rw [hstored]
    refine .tryStore trivial ?_
    rintro (e | _ | _) _
    · exact (obeys_unfollowed _).mono fun φ o h => h ▸ owes_none b o
    · show Obeys _ _ _ (some (b.plus zero))
      rw [plus_zero]
      exact obeys_burn_ledger record
    · exact .inr rfl
  · show Owes b (Ledger.next (some b) (.store (.createRecord child)) (.error e)) _
    rw [hstored]
    exact owes_error nofun

theorem obeys_exchange_ledger (record : TokenRecord) (audience : List String) (p : TokenPolicy)
    (now : Instant) :
    (Rotation.exchange record audience p now).Obeys Ledger.discipline (Owes b) (some b) := by
  unfold Rotation.exchange Issuance.resolveClient
  rw [bind_assoc]
  refine .reads (c := .getClient record.clientId) trivial (fun client => ?_)
    fun e => owes_error nofun
  rcases client with _ | client
  · exact owes_error nofun
  refine obeys_mint_ledger (owes_none b) ?_ (.inr rfl) fun t child hparent hlive =>
    obeys_succeed_ledger t hparent hlive
  rintro _ (rfl | ⟨d, rfl⟩)
  · exact owes_error nofun
  · exact owes_error nofun

theorem obeys_rotate_ledger (r : Rotation.Request) (p : TokenPolicy) (now : Instant) :
    (Rotation.rotate r p now).Obeys Ledger.discipline (Owes b) (some b) := by
  unfold Rotation.rotate
  refine .reads (c := .getRecord r.refreshId) trivial (fun record => ?_)
    fun e => owes_error nofun
  rcases record with _ | record
  · exact owes_error nofun
  dsimp only
  split_ifs
  · exact owes_error nofun
  · exact obeys_burn_ledger record
  · exact owes_error nofun
  · exact owes_error nofun
  · exact obeys_exchange_ledger record r.audience p now

instance (r : Rotation.Request) (p : TokenPolicy) (now : Instant) :
    Level (Rotation.refresh r p now) where
  obeys b := by
    have hcount : ∀ (result : Except TokenError TokenSet) (φ : Ledger.Phase),
        At (b.plus (Counter.tally (.refreshed (Rotation.resultOf result)) 1)) φ →
        (count (.refreshed (Rotation.resultOf result)) >>= fun _ => ofExcept result).Obeys
          Ledger.discipline (fun φ _ => At b φ) φ := by
      rintro result φ (rfl | rfl)
      · exact (obeys_unfollowed _).mono fun _ _ => .inl
      · exact ⟨trivial, fun _ _ =>
          (obeys_ofExcept result _).2 (.inr (congrArg some (plus_minus b _)))⟩
    unfold Rotation.refresh
    refine .attempt (obeys_rotate_ledger r p now) ?_ ?_ fun φ h => h
    · exact fun φ t h => hcount (.ok t) φ h
    · exact fun φ e h => hcount (.error e) φ h

end Rotation

section Tokens

instance (e : Endpoint) (r : TokenRequest) : Level (e.codeGrant r) := by
  unfold Endpoint.codeGrant
  infer_instance

instance (e : Endpoint) (r : TokenRequest) : Level (e.refreshGrant r) := by
  unfold Endpoint.refreshGrant
  infer_instance

instance (grant : Operation α) [Level grant] : Level (Endpoint.afterRotation grant) := by
  unfold Endpoint.afterRotation
  infer_instance

instance (e : Endpoint) (r : TokenRequest) : Level (e.exchange r) := by
  unfold Endpoint.exchange
  infer_instance

instance (e : Endpoint) (r : TokenRequest) : Level (e.token r) := by
  unfold Endpoint.token
  infer_instance

theorem level_request (q : Request) : Level q.operation := by
  cases q with
  | verifyAccess t => exact inferInstanceAs (Level (Signing.verify .access t))
  | verifyId t => exact inferInstanceAs (Level (Signing.verify .idToken t))
  | _ =>
    unfold Request.operation
    infer_instance

end Tokens

/-- Requests begin and end without debts. -/
def Ledger.regime : Regime Ledger.Phase where
  discipline := discipline
  start _ := some zero
  Fits _ φ _ := At zero φ
  obeys q := (level_request q).obeys zero

end TokenAuthority

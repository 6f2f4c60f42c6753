import TokenAuthority.Proofs.Chain.Rejection
import TokenAuthority.Proofs.Token.Validity

/-!
# The arithmetic of lifetimes

A lifetime is added to an instant as it is, unless it is so long that a hundred years stand for it.
Between the two lie lifetimes that are added as they are and lead beyond the last instant
(`Instant.Overruns`, `after_eq_none_iff`), and a lifetime of more than a hundred years may end later
than a longer one that is capped (`le_after_iff`). Nothing else goes wrong with the lifetimes that
an authority is set up with: what it issues overflows by an overrun only, and succeeds without one
(`lifetime_arithmetic`).
-/

namespace TokenAuthority

open Operation Time

theorem Time.Duration.seconds_le {a b : Duration} (h : a.nanoseconds ≤ b.nanoseconds) :
    a.seconds.toNat ≤ b.seconds.toNat := by
  have hb := b.nanos_lt
  unfold nanoseconds at h
  omega

namespace Time.Instant

/-- The last second of the year 9999. -/
def lastFourDigitSecond : Int := 253402300799

/-- A lifetime is added as it is, but leads beyond the last instant. -/
def Overruns (now : Instant) (lifetime : Duration) : Prop :=
  lastSecond < (now.add lifetime.nanoseconds).seconds ∧ lifetime.nanoseconds ≤ longestLifetime

instance (now : Instant) (lifetime : Duration) : Decidable (now.Overruns lifetime) :=
  inferInstanceAs (Decidable (_ ∧ _))

/-- Two lifetimes of which the longer is capped and the shorter is not, although it is longer than
what stands for the other. -/
def Outstays (a b : Duration) : Prop :=
  cappedLifetime < a.nanoseconds ∧ a.nanoseconds ≤ longestLifetime ∧
    longestLifetime < b.nanoseconds

variable {now t t' : Instant} {a b lifetime : Duration}

/-- What is added for longer ends later, also from within a leap second. -/
theorem add_lt_add_iff {m n : Nat} : now.add m < now.add n ↔ m < n := by
  show _ ∨ _ ↔ _
  unfold add
  dsimp only
  split_ifs <;> omega

theorem add_le_add_iff {m n : Nat} : now.add m ≤ now.add n ↔ m ≤ n :=
  (not_congr add_lt_add_iff).trans Nat.not_lt

theorem after_eq_none_iff (hnow : now.seconds ≤ lastFourDigitSecond) :
    now.after lifetime = none ↔ now.Overruns lifetime := by
  have hspan : now.after lifetime = none ↔ lastSecond < (now.add (span lifetime)).seconds := by
    simp [after]
  rw [hspan]
  unfold span Overruns
  split_ifs with hlong
  · exact (and_iff_left hlong).symm
  · -- A hundred years more do not lead beyond the last instant.
    have hcapped : (now.add cappedLifetime).seconds = now.seconds + 3153600000 := by
      rw [seconds_add, cappedLifetime]
      omega
    have hlast : lastFourDigitSecond + 3153600000 ≤ lastSecond := by decide
    omega

theorem le_after_iff (ha : now.after a = some t) (hb : now.after b = some t')
    (hab : a.nanoseconds ≤ b.nanoseconds) : t ≤ t' ↔ ¬ Outstays a b := by
  rw [(after_eq_some ha).1, (after_eq_some hb).1, add_le_add_iff]
  unfold span Outstays
  split_ifs <;> omega

end Time.Instant

/-- What is issued overflows because of something, and does not succeed in spite of it. -/
def Outcome.OverflowsBy {α : Type} (P : Prop) : Outcome α → Prop
  | .ok _ => ¬ P
  | .error _ => True
  | .overflow => P

theorem Outcome.OverflowsBy.of_kind {α : Type} {P : Prop} {o : Outcome α} {kind : Outcome Unit}
    (hkind : o.kind = kind) (h : kind.OverflowsBy P) : o.OverflowsBy P := by
  subst hkind
  cases o <;> exact h

/-- A call of the store whose result is of no account. -/
theorem Operation.Ensures.storeAny {β : Type} {G : Reply → Prop} {w : World} {c : StoreCall}
    {f : c.Result → Operation β} {Q : Outcome β → Prop} (herror : ∀ e, Q (.error e))
    (hok : ∀ r, (f r).Ensures G (w.after c) fun o _ _ => Q o) :
    (Operation.ofStore c >>= f).Ensures G w fun o _ _ => Q o := by
  rcases hc : (w.store.perform c).1 with e | r
  · exact .refused hc (fun _ _ => herror _) (herror _)
  · exact .ofStore hc (fun _ _ => herror _) (hok r)

section Operations

variable {G : Reply → Prop} {w : World} {p : TokenPolicy} {now : Instant}

/-- One of the lifetimes of tokens is too long. -/
def TokenPolicy.Overruns (p : TokenPolicy) (now : Instant) : Prop :=
  now.Overruns p.accessLifetime ∨ now.Overruns p.refreshLifetime

variable (hnow : now.seconds ≤ Instant.lastFourDigitSecond)

include hnow

theorem overflowsBy_mint (m : Issuance.Mint) (ring : KeyRing) :
    (m.verdict p now ring).OverflowsBy (p.Overruns now) := by
  unfold Issuance.Mint.verdict TokenPolicy.Overruns
  rw [← Instant.after_eq_none_iff hnow, ← Instant.after_eq_none_iff hnow]
  rcases (Issuance.claimsRequest m p now).build "" with e | claims
  · trivial
  rcases ring.signingKey with e | key
  · trivial
  rcases now.after p.refreshLifetime with _ | t
  · simp [Outcome.OverflowsBy]
  · rcases now.after p.accessLifetime with _ | t' <;> simp [Outcome.OverflowsBy]

theorem overflowsBy_issue (r : IssueRequest) :
    (Issuance.issue r p now).Ensures G w fun o _ _ => o.OverflowsBy (p.Overruns now) := by
  refine Issuance.ensures_issue.mono ?_
  rintro o w' past (⟨hkind, -⟩ | -)
  · refine .of_kind hkind ?_
    unfold Issuance.verdict
    rcases w.store.client? r.clientId with _ | c
    · trivial
    · exact overflowsBy_mint hnow _ w.ring
  · trivial

theorem overflowsBy_refresh (q : Rotation.Request) :
    (Rotation.refresh q p now).Ensures G w fun o _ _ => o.OverflowsBy (p.Overruns now) := by
  refine Rotation.settles_refresh.mono ?_
  rintro o w' past (hkind | ⟨-, rfl⟩)
  · refine .of_kind hkind ?_
    unfold Rotation.verdict
    rcases w.store.record? q.refreshId with _ | r
    · trivial
    dsimp only
    split_ifs
    any_goals trivial
    rcases w.store.client? r.clientId with _ | c
    · trivial
    · exact overflowsBy_mint hnow _ w.ring
  · trivial

theorem overflowsBy_issueCode (p : CodePolicy) (r : CodeRequest) :
    (Codes.issue p r now).Ensures G w fun o _ _ => o.OverflowsBy (now.Overruns p.lifetime) := by
  unfold Codes.issue
  refine .storeAny (fun _ => trivial) fun client => ?_
  rcases client with _ | client
  · trivial
  refine .ofExcept (fun _ _ => .random fun bytes => ?_) fun _ _ => trivial
  refine .after (fun t ht => ?_) (Instant.after_eq_none_iff hnow).1
  refine .storeAny (fun _ => trivial) fun _ => .count ?_
  show ¬ now.Overruns p.lifetime
  rw [← Instant.after_eq_none_iff hnow, ht]
  nofun

end Operations

/-- Whatever an authority is set up with, issuing a code or tokens and exchanging a refresh token
overflow by a lifetime that overruns, and by nothing else. A longer lifetime ends no earlier, unless
it is capped and the shorter one outstays it; in claims it never does. -/
theorem lifetime_arithmetic (s : Settings) {now : Instant}
    (hnow : now.seconds ≤ Instant.lastFourDigitSecond) :
    (∀ r w replies, (World.complete (Codes.issue (.ofSettings s) r now) w replies).1.OverflowsBy
      (now.Overruns (.ofSeconds s.codeLifetime))) ∧
    (∀ r w replies, (World.complete (Issuance.issue r (.ofSettings s) now) w
      replies).1.OverflowsBy (now.Overruns (.ofSeconds s.accessLifetime) ∨
        now.Overruns (.ofSeconds s.refreshLifetime))) ∧
    (∀ q w replies, (World.complete (Rotation.refresh q (.ofSettings s) now) w
      replies).1.OverflowsBy (now.Overruns (.ofSeconds s.accessLifetime) ∨
        now.Overruns (.ofSeconds s.refreshLifetime))) ∧
    ∀ a b : Duration, a.nanoseconds ≤ b.nanoseconds →
      (∀ t t', now.after a = some t → now.after b = some t' →
        (t ≤ t' ↔ ¬ Instant.Outstays a b)) ∧
      ∀ c : Claims, (c.expiringAfter a.seconds).exp ≤ (c.expiringAfter b.seconds).exp := by
  have hany : ∀ _ : Nat, True := fun _ => trivial
  refine ⟨fun r w replies => ?_, fun r w replies => ?_, fun q w replies => ?_,
    fun a b hab => ⟨fun t t' ht ht' => Instant.le_after_iff ht ht' hab, fun c => ?_⟩⟩
  · exact (overflowsBy_issueCode (G := fun _ => True) hnow (.ofSettings s) r).complete hany
  · exact (overflowsBy_issue (G := fun _ => True) (p := .ofSettings s) hnow r).complete hany
  · exact (overflowsBy_refresh (G := fun _ => True) (p := .ofSettings s) hnow q).complete hany
  · have hseconds := Duration.seconds_le hab
    rw [Int64.le_iff_toInt_le, c.toInt_exp_expiringAfter, c.toInt_exp_expiringAfter]
    omega

namespace Sample

def consentRequest : CodeRequest :=
  ⟨"c1", "https://a/cb", "openid", some challenge, some "S256", "u1", none⟩

def now : Instant := ⟨1700000000, 0⟩

/-- The lifetime of codes is the longest that is added as it is. -/
def longestVariable (name : String) : Option String :=
  if name = "AUTH_CODE_TTL" then some "9223372036854775" else none

def longestSettings : Settings := { Settings.standard with codeLifetime := 9223372036854775 }

end Sample

/-- Codes of the longest lifetime cannot be issued, but tokens can. -/
theorem lifetime_arithmetic_longest :
    Sample.now.seconds ≤ Instant.lastFourDigitSecond ∧
    Sample.now.Overruns (.ofSeconds Sample.longestSettings.codeLifetime) ∧
    ∀ r w replies, (World.complete (Issuance.issue r (.ofSettings Sample.longestSettings)
      Sample.now) w replies).1 ≠ .overflow := by
  have hnow : Sample.now.seconds ≤ Instant.lastFourDigitSecond := by decide
  obtain ⟨hcode, hissue, -⟩ := lifetime_arithmetic Sample.longestSettings hnow
  refine ⟨hnow, ?_, fun r w replies ho => ?_⟩
  · have hoverflow : (World.complete (Codes.issue (.ofSettings Sample.longestSettings)
        Sample.consentRequest Sample.now) Sample.world fun _ => Sample.reply 1).1 = .overflow := by
      decide +kernel
    have hby := hcode Sample.consentRequest Sample.world fun _ => Sample.reply 1
    rwa [hoverflow] at hby
  · have hfits : ¬ (Sample.now.Overruns (.ofSeconds Sample.longestSettings.accessLifetime) ∨
        Sample.now.Overruns (.ofSeconds Sample.longestSettings.refreshLifetime)) := by decide
    have hby := hissue r w replies
    rw [ho] at hby
    exact hfits hby

/-- The settings are accepted and yet no code can be issued. A lifetime of a second more than a
hundred years ends after the longest one. -/
theorem lifetime_overflows :
    (∃ s, Settings.ofVariables Sample.longestVariable = .ok s ∧
      (World.complete (Codes.issue (.ofSettings s) Sample.consentRequest Sample.now) Sample.world
        fun _ => Sample.reply 1).1 = .overflow) ∧
    ∃ (a b : UInt64) (t t' : Instant), a ≤ b ∧ Sample.now.after (.ofSeconds a) = some t ∧
      Sample.now.after (.ofSeconds b) = some t' ∧ t' < t := by
  refine ⟨⟨Sample.longestSettings, ?_, ?_⟩, 3153600001, 0xFFFFFFFFFFFFFFFF, ⟨4853600001, 0⟩,
    ⟨4853600000, 0⟩, ?_⟩
  all_goals decide +kernel

end TokenAuthority

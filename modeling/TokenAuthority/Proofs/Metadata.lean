import TokenAuthority.Proofs.Code.Acceptance
import TokenAuthority.Proofs.Keys.Algorithms
import TokenAuthority.Proofs.Keys.Publication

/-!
# What the metadata tells

The document of an endpoint is made of its settings, while grants, challenge methods and keys are
decided on elsewhere. Still they agree. A grant that is begun ends in some other way than with the
error of a grant that there is not (`Outcome.Handled`, `Endpoint.handled_exchange`). A challenge of
the form that all methods make is refused for its method only (`Codes.exists_acceptChallenge`,
`Codes.acceptChallenge_of_not_mem`), and the keys of a ring have the ring's algorithm
(`KeyRing.Uses`). So the document tells the truth (`metadata_tells_truth`).
-/

namespace TokenAuthority

open Operation Time

variable {α : Type}

/-- An operation does not end because there is no grant of a type. -/
def Outcome.Handled : Outcome α → Prop
  | .error (.unsupportedGrantType _) => False
  | _ => True

theorem Outcome.Handled.of_kind {o : Outcome α} {kind : Outcome Unit} (hkind : o.kind = kind)
    (h : kind.Handled) : o.Handled := by
  subst hkind
  rcases o with a | e | _
  · trivial
  · cases e <;> exact h
  · trivial

section Verdicts

variable {p : TokenPolicy} {now : Instant} {s : Store} {ring : KeyRing}

theorem Issuance.Mint.handled_verdict (m : Mint) : (m.verdict p now ring).Handled := by
  unfold verdict
  rcases hbuild : (claimsRequest m p now).build "" with e | claims
  · obtain ⟨d, rfl⟩ := build_error hbuild
    trivial
  unfold KeyRing.signingKey
  rcases ring.active with _ | a
  · trivial
  dsimp only
  split <;> trivial

theorem Issuance.handled_verdict (r : IssueRequest) : (verdict r p now s ring).Handled := by
  unfold verdict
  rcases s.client? r.clientId with _ | c
  · trivial
  · exact Mint.handled_verdict _

theorem Rotation.handled_verdict (q : Request) : (verdict q p now s ring).Handled := by
  unfold verdict
  rcases s.record? q.refreshId with _ | r
  · trivial
  dsimp only
  split_ifs
  any_goals trivial
  rcases s.client? r.clientId with _ | c
  · trivial
  · exact Issuance.Mint.handled_verdict _

end Verdicts

namespace Endpoint

variable {e : Endpoint} {r : TokenRequest} {w : World}

theorem handled_verdict {now now' : Instant} {s : Store} {ring : KeyRing} :
    (verdict e r now now' s ring).Handled := by
  unfold verdict
  rcases hq : redemption r with err | q
  · have hspec := redemption_spec r
    rw [hq] at hspec
    obtain ⟨m, rfl⟩ := hspec
    trivial
  dsimp only
  rcases hchecked : Codes.checked e.codePolicy q now s with err | c
  · obtain ⟨m, rfl⟩ := Codes.checked_error hchecked
    trivial
  · exact Issuance.handled_verdict _

theorem handled_codeGrant :
    (e.codeGrant r).Ensures (fun _ => True) w fun o _ _ => o.Handled := by
  refine (ensures_codeGrant ⟨Sample.reply 0, trivial⟩).mono fun o w' past hcourse => ?_
  cases hcourse with
  | settled _ _ hkind => exact .of_kind hkind handled_verdict
  | kept | spent => trivial

theorem handled_refreshGrant :
    (e.refreshGrant r).Ensures (fun _ => True) w fun o _ _ => o.Handled := by
  have hrequire (name : String) (value : Option String) (err : TokenError)
      (h : TokenRequest.require name value = .error err) :
      (.error err : Outcome TokenResponse).Handled := by
    obtain ⟨m, rfl⟩ := require_error h
    trivial
  unfold refreshGrant
  refine .ofExcept (fun token _ => .ofExcept (fun clientId _ => ?_) (hrequire _ _))
    (hrequire _ _)
  refine .clock fun reply _ => Rotation.settles_refresh.bind ?_
  rintro (t | err | _) w' past (hkind | ⟨-, ho⟩)
  · trivial
  · cases ho
  · exact Outcome.Handled.of_kind (o := .error err) hkind (Rotation.handled_verdict _)
  · cases ho
    trivial
  · trivial
  · cases ho

/-- The types of the grants that there are. -/
theorem handled_exchange (hr : r.grantType ∈ ["authorization_code", "refresh_token"]) :
    (e.exchange r).Ensures (fun _ => True) w fun o _ _ => o.Handled := by
  unfold exchange
  split_ifs with hcode hrefresh
  · exact .afterRotation fun _ _ _ => handled_codeGrant
  · exact .afterRotation fun _ _ _ => handled_refreshGrant
  · simp [hcode, hrefresh] at hr

theorem complete_exchange_iff {replies : Nat → Reply} {g : String} :
    (World.complete (e.exchange r) w replies).1 = .error (.unsupportedGrantType g) ↔
      r.grantType ∉ ["authorization_code", "refresh_token"] ∧ g = r.grantType := by
  by_cases hr : r.grantType ∈ ["authorization_code", "refresh_token"]
  · have hhandled : (World.complete (e.exchange r) w replies).1.Handled :=
      (handled_exchange hr).complete fun _ => trivial
    refine ⟨fun h => ?_, fun h => absurd hr h.1⟩
    rw [h] at hhandled
    exact hhandled.elim
  · have hexchange : e.exchange r = fail (.unsupportedGrantType r.grantType) := by
      unfold exchange
      rw [if_neg (by rintro h; simp [h] at hr), if_neg (by rintro h; simp [h] at hr)]
    rw [hexchange]
    constructor
    · rintro ⟨⟩
      exact ⟨hr, rfl⟩
    · rintro ⟨-, rfl⟩
      rfl

end Endpoint

/-- The name of the method that a request for a code asks for; none and the empty one stand for
`plain`. -/
def CodeRequest.methodName (q : CodeRequest) : String :=
  (filled? q.method).getD PkceMethod.plain.name

theorem PkceMethod.name_injective : Function.Injective PkceMethod.name := by
  rintro (_ | _) (_ | _) h
  any_goals rfl
  all_goals exact absurd h (by decide)

theorem PkceMethod.parse_spec (q : CodeRequest) : match parse q.method with
    | .ok m => m.name = q.methodName
    | .error e => e = .unsupportedPkceMethod q.methodName ∧
      ∀ m : PkceMethod, m.name ≠ q.methodName := by
  unfold CodeRequest.methodName parse
  generalize q.method = name
  split
  · rename_i m h
    split at h <;> cases h <;> rfl
  · rename_i e h
    split at h <;> cases h
    rename_i other hempty hplain hs256
    have hfilled : filled? (some other) = some other :=
      Option.filter_some_pos (by simpa using hempty)
    rw [hfilled]
    refine ⟨rfl, ?_⟩
    rintro (_ | _) ⟨⟩
    · exact hplain rfl
    · exact hs256 rfl

theorem Discovery.mem_challengeMethods {issuer name : String} {a : Algorithm}
    {allowPlain : Bool} : name ∈ (ofIssuer issuer a allowPlain).challengeMethods ↔
      ∃ m : PkceMethod, m.name = name ∧ (m = .plain → allowPlain = true) := by
  constructor
  · intro h
    rcases List.mem_cons.1 h with rfl | h
    · exact ⟨.s256, rfl, nofun⟩
    · split_ifs at h with hallowed
      · exact ⟨.plain, (List.mem_singleton.1 h).symm, fun _ => hallowed⟩
      · cases h
  · rintro ⟨_ | _, rfl, hallowed⟩
    · exact List.mem_cons_of_mem _ (by rw [if_pos (hallowed rfl)]; exact List.mem_singleton_self _)
    · exact List.mem_cons_self

namespace Codes

variable {p : CodePolicy} {q : CodeRequest} {client : Client} {now : Instant} {w : World}

/-- A request of a client that may make it, to which nothing but the method of its challenge can be
objected. -/
structure Challenges (client : Client) (q : CodeRequest) : Prop extends Admits client q where
  challenge : ∃ challenge, q.challenge = some challenge ∧ ∀ m, Pkce.ChallengeForm challenge m

variable {issuer : String} {a : Algorithm}

theorem exists_acceptChallenge {challenge : String}
    (hform : ∀ m, Pkce.ChallengeForm challenge m)
    (h : q.methodName ∈ (Discovery.ofIssuer issuer a p.allowPlain).challengeMethods) :
    ∃ m, acceptChallenge p challenge q.method = .ok m := by
  obtain ⟨m, hname, hallowed⟩ := Discovery.mem_challengeMethods.1 h
  have hparse := PkceMethod.parse_spec q
  rcases hm : PkceMethod.parse q.method with e | k <;> rw [hm] at hparse
  · exact absurd hname (hparse.2 m)
  obtain rfl := PkceMethod.name_injective (hparse.trans hname.symm)
  have hfilled : challenge ≠ "" := by
    rintro rfl
    exact absurd (hform .s256).length (by decide)
  exact ⟨k, acceptChallenge_eq_ok_iff.2 ⟨hm, hallowed, hfilled, fun _ => hform k⟩⟩

/-- Whatever else there is to be said about a challenge comes after its method. -/
theorem acceptChallenge_of_not_mem (challenge : String)
    (h : q.methodName ∉ (Discovery.ofIssuer issuer a p.allowPlain).challengeMethods) :
    acceptChallenge p challenge q.method = .error (.unsupportedPkceMethod q.methodName) := by
  rw [Discovery.mem_challengeMethods] at h
  have hparse := PkceMethod.parse_spec q
  unfold acceptChallenge
  rcases hm : PkceMethod.parse q.method with e | k <;> rw [hm] at hparse
  · rw [hparse.1]
    rfl
  · cases k with
    | plain =>
      have hrefused : p.allowPlain = false :=
        Bool.eq_false_iff.2 fun hallowed => h ⟨.plain, hparse, fun _ => hallowed⟩
      rw [← hparse]
      exact if_pos ⟨rfl, hrefused⟩
    | s256 => exact absurd ⟨.s256, hparse, nofun⟩ h

section Issue

variable {replies : Nat → Reply} (hclient : w.store.client? q.clientId = some client)
  (hq : Challenges client q) (hhealthy : ∀ n, (replies n).healthy)

include hclient hq hhealthy

theorem exists_issue
    (h : q.methodName ∈ (Discovery.ofIssuer issuer a p.allowPlain).challengeMethods)
    (hlifetime : (now.after p.lifetime).isSome)
    (hnew : w.store.Unissued (World.calls (issue p q now) w replies)) :
    ∃ v, (World.complete (issue p q now) w replies).1 = .ok v := by
  obtain ⟨challenge, hchallenge, hform⟩ := hq.challenge
  obtain ⟨m, hm⟩ := exists_acceptChallenge hform h
  have hmethod : acceptMethod p client q = .ok (some m) := by
    rw [acceptMethod, hchallenge]
    dsimp only
    rw [hm]
    rfl
  exact ((ensures_issue hlifetime).complete hhealthy).exists_ok hclient hq.toAdmits
    (acceptMethod_eq_ok_iff.1 hmethod) hnew

theorem issue_of_not_mem
    (h : q.methodName ∉ (Discovery.ofIssuer issuer a p.allowPlain).challengeMethods) :
    (World.complete (issue p q now) w replies).1 =
      .error (.unsupportedPkceMethod q.methodName) := by
  obtain ⟨challenge, hchallenge, -⟩ := hq.challenge
  refine (ensures_issue_error hclient ?_).complete hhealthy
  rw [accept_of_admits hq.toAdmits, acceptMethod, hchallenge]
  dsimp only
  rw [acceptChallenge_of_not_mem challenge h]
  rfl

end Issue

end Codes

/-- The keys of a ring are published with the algorithm of the ring. -/
theorem KeyRing.Uses.alg_publicKeys {ring : KeyRing} {a : Algorithm} (h : ring.Uses a) :
    ∀ k ∈ ring.publicKeys.keys, k.alg = a.name := by
  intro k hk
  rw [keys_publicKeys] at hk
  obtain ⟨key, hkey, rfl⟩ := List.mem_map.1 hk
  have hmem : key ∈ ring.keys := ring.perm_byAge.mem_iff.2 (List.mem_reverse.1 hkey)
  rw [key.publicKey_alg, h.keys key hmem]

open Codes

/-- Whatever the settings, the document of an endpoint tells which grants it has, which methods of a
challenge it accepts, and the algorithm of any key that it publishes, now or later. -/
theorem metadata_tells_truth {s : Settings} {e : Endpoint} (he : e = .ofSettings s) :
    (∀ r w replies g, (World.complete (e.exchange r) w replies).1 =
        .error (.unsupportedGrantType g) ↔ r.grantType ∉ e.discovery.grantTypes ∧ g = r.grantType) ∧
    (∀ (q : CodeRequest) (client : Client) (now : Instant) (w : World) (replies : Nat → Reply),
      w.store.client? q.clientId = some client → Challenges client q →
      (∀ n, (replies n).healthy) → (now.after e.codePolicy.lifetime).isSome →
      (q.methodName ∈ e.discovery.challengeMethods →
        w.store.Unissued (World.calls (issue e.codePolicy q now) w replies) →
        ∃ v, (World.complete (issue e.codePolicy q now) w replies).1 = .ok v) ∧
      (q.methodName ∉ e.discovery.challengeMethods →
        (World.complete (issue e.codePolicy q now) w replies).1 =
          .error (.unsupportedPkceMethod q.methodName))) ∧
    ∀ (w : World) (moves : List Move) (replies : Nat → Reply), w.ring = .ofSettings s →
      ∃ ks, (World.complete Endpoint.publicKeys ((System.start w).run moves).world replies).1 =
        .ok ks ∧ ∀ k ∈ ks.keys, k.alg ∈ e.discovery.signingAlgorithms := by
  subst he
  refine ⟨fun r w replies g => Endpoint.complete_exchange_iff, ?_, ?_⟩
  · intro q client now w replies hclient hq hhealthy hlifetime
    exact ⟨fun hmem hnew => exists_issue hclient hq hhealthy hmem hlifetime hnew,
      fun hmem => issue_of_not_mem hclient hq hhealthy hmem⟩
  · intro w moves replies hring
    have huses : ((System.start w).run moves).world.ring.Uses s.algorithm :=
      uses_run (by rw [hring]; exact KeyRing.uses_empty _ _ _) moves
    refine ⟨_, rfl, fun k hk => ?_⟩
    rw [huses.alg_publicKeys k hk]
    exact List.mem_singleton_self _

namespace Sample

/-- Settings that allow no challenge but a digest, with a new key every second. -/
def digestSettings : Settings :=
  { Settings.standard with algorithm := .es256, rotationPeriod := 1, allowPlain := false }

def digestEndpoint : Endpoint := .ofSettings digestSettings

def digestWorld : World := { world with ring := .ofSettings digestSettings }

/-- A request of a type that only other authorities know. -/
def implicitRequest : TokenRequest := { codeRequest with grantType := "implicit" }

/-- A request for a code that does not say how its challenge was made. -/
def unnamed : CodeRequest := { consentRequest with method := none }

end Sample

theorem metadata_tells_truth_digests :
    (World.complete (Sample.digestEndpoint.exchange Sample.implicitRequest) Sample.world
      fun _ => Sample.reply 1).1 = .error (.unsupportedGrantType "implicit") ∧
    (∃ v, (World.complete (issue Sample.digestEndpoint.codePolicy Sample.consentRequest ⟨0, 0⟩)
      Sample.world fun _ => Sample.reply 1).1 = .ok v) ∧
    (World.complete (issue Sample.digestEndpoint.codePolicy Sample.unnamed ⟨0, 0⟩) Sample.world
      fun _ => Sample.reply 1).1 = .error (.unsupportedPkceMethod "plain") ∧
    ∃ ks, (World.complete Endpoint.publicKeys
      ((System.start Sample.digestWorld).run Sample.rotations).world fun _ => Sample.reply 1).1 =
        .ok ks ∧ ks.keys.length = 2 ∧ ∀ k ∈ ks.keys, k.alg ∈ ["ES256"] := by
  obtain ⟨hgrant, hmethod, hkeys⟩ :=
    metadata_tells_truth (rfl : Sample.digestEndpoint = .ofSettings Sample.digestSettings)
  obtain ⟨hclient, hnew⟩ : Sample.world.store.client? "c1" = some Sample.publicApp ∧
      Sample.world.store.Unissued (World.calls (issue Sample.digestEndpoint.codePolicy
        Sample.consentRequest ⟨0, 0⟩) Sample.world fun _ => Sample.reply 1) := by
    decide +kernel
  have hform : ∀ m, Pkce.ChallengeForm Sample.challenge m := fun m =>
    Pkce.hasChallengeForm_iff.1 (by cases m <;> decide +kernel)
  have hadmits : Admits Sample.publicApp Sample.consentRequest :=
    ⟨by decide, by decide, .inr (by decide +kernel)⟩
  have hchallenges (method : Option String) :
      Challenges Sample.publicApp { Sample.consentRequest with method } :=
    ⟨⟨hadmits.redirectUri, hadmits.userId, hadmits.scopes⟩, _, rfl, hform⟩
  refine ⟨(hgrant _ _ _ _).2 ⟨by decide, rfl⟩, ?_, ?_, ?_⟩
  · exact (hmethod Sample.consentRequest _ _ _ _ hclient (hchallenges (some "S256"))
      (fun _ => rfl) rfl).1 (by decide) hnew
  · exact (hmethod Sample.unnamed _ _ _ _ hclient (hchallenges none) (fun _ => rfl) rfl).2
      (by decide)
  · obtain ⟨ks, hks, halg⟩ :=
      hkeys Sample.digestWorld Sample.rotations (fun _ => Sample.reply 1) rfl
    refine ⟨ks, hks, ?_, halg⟩
    cases hks
    decide +kernel

end TokenAuthority

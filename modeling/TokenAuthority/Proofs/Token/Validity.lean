import TokenAuthority.Proofs.Interleaving
import TokenAuthority.Proofs.Token.Verification

/-!
# How long a token is valid

What a key signs is believed for as long as the ring has the key and the claims have not expired
(`Jws.inspect_eq_ok_iff`, `Jws.vouched_sign`), and then no longer (`Jws.inspect_sign`). In use this
is a round trip: the claims that were signed come back with their expiry, until that is reached
(`valid_until_expiry`). The expiry is the issue plus the lifetime, each of which can hold no more
than 2^63 - 1 seconds (`Claims.toInt_exp_expiringAfter`).
-/

namespace TokenAuthority

open Encoding Json Time

namespace Jws

namespace Header

theorem reads_fields {h : Header} (halg : h.algorithm ∈ algorithmNames) :
    Reads fields (.members ([("typ", .str "JWT"), ("alg", .str h.algorithm)]
      ++ present "kid" (h.kid.map .str))) h := by
  obtain ⟨algorithm, kid⟩ := h
  dsimp only at halg ⊢
  have htyp : members "typ" ([("typ", .str "JWT"), ("alg", .str algorithm)]
      ++ present "kid" (kid.map .str)) = [.str "JWT"] := by rcases kid with _ | kid <;> rfl
  have hname : members "alg" ([("typ", .str "JWT"), ("alg", .str algorithm)]
      ++ present "kid" (kid.map .str)) = [.str algorithm] := by rcases kid with _ | kid <;> rfl
  have hkid : members "kid" ([("typ", .str "JWT"), ("alg", .str algorithm)]
      ++ present "kid" (kid.map .str)) = (kid.map .str).toList := by rcases kid with _ | kid <;> rfl
  have hothers : ∀ name ∉ ["typ", "alg", "kid"], members name ([("typ", .str "JWT"),
      ("alg", .str algorithm)] ++ present "kid" (kid.map .str)) = [] := by
    intro name hname
    refine members_eq_nil fun m hm he => hname (he ▸ ?_)
    rcases kid with _ | kid <;> simp [present] at hm ⊢ <;> grind
  generalize [("typ", .str "JWT"), ("alg", .str algorithm)] ++ present "kid" (kid.map .str) = ms
    at htyp hname hkid hothers ⊢
  have hother : ∀ {α : Type} (name : String) (item : Reading α), name ∉ ["typ", "alg", "kid"] →
      Reads (optional name item) (.members ms) none :=
    fun name item h => reads_optional_none (hothers name h)
  have hreadTyp : Reads (optional "typ" readText) (.members ms) (some "JWT") := reads_field htyp rfl
  have hreadName : Reads (required "alg" readAlgorithm) (.members ms) algorithm :=
    reads_field hname (by simp [readAlgorithm, readName, halg])
  have hreadKid : Reads (optional "kid" readText) (.members ms) kid := reads_optional_text hkid
  have hread := (((((((((hreadTyp.map fun _ algorithm _ _ _ kid _ _ _ _ => mk algorithm kid).seq
    hreadName).seq (hother "cty" readText (by simp))).seq (hother "jku" readText (by simp))).seq
    (hother "jwk" EmbeddedKey.ofJson (by simp))).seq hreadKid).seq
    (hother "x5u" readText (by simp))).seq (hother "x5c" (readList readText) (by simp))).seq
    (hother "x5t" readText (by simp))).seq (hother "x5t#S256" readText (by simp))
  exact hread

/-- A header that names an algorithm is read back from its segment. -/
theorem readSegment_toJson {h : Header} (halg : h.algorithm ∈ algorithmNames) :
    readSegment ofBytes? (segment h.toJson) = .ok h := by
  have hwithin : Within 1 h.toJson := .obj (by simp)
  have hread : ofJson h.toJson = .ok h := readRecord_of_reads (reads_fields halg)
  simp [readSegment, segment, ofBase64Url?_base64Url, ofBytes?,
    hwithin.readKept_text (by decide), hread, Except.toOption]

end Header

variable {type : ClaimType} {ring : KeyRing} {second : Int} {token : String}

theorem checkExpiry_eq_ok_iff {c : Claims} (hnow : 0 ≤ second) :
    checkExpiry second c = .ok () ↔ second < c.exp.toInt := by
  refine ⟨checkExpiry_eq_ok, fun h => ?_⟩
  unfold checkExpiry Claims.expired
  rw [if_neg (by omega), if_neg (by omega), if_neg (by simpa using h)]

theorem Vouched.ofText? {c : type.Carrier} {s : Segments} {key : SigningKey}
    (h : Vouched type ring second token c s key) : Segments.ofText? token = some s := by
  obtain ⟨_, hsignature⟩ := h.signed
  obtain ⟨_, hpayload, -⟩ := readSegment_eq_ok h.payload
  have htext : token = s.text := by
    have hcut : ['.'].intercalate (token.toList.splitOn '.') = token.toList :=
      List.intercalate_splitOn '.'
    rw [← String.toList_inj, ← hcut, h.segments]
    simp [Segments.text, Segments.message, List.intercalate, List.intersperse]
  rw [htext]
  exact Segments.ofText?_text (point_not_mem_of_decoded hpayload)
    (point_not_mem_of_decoded hsignature)

/-- Verification accepts what a key of the ring vouches for, and nothing else. -/
theorem inspect_eq_ok_iff {c : type.Carrier} (hnow : 0 ≤ second) :
    inspect type ring second token = .ok c ↔ ∃ s key, Vouched type ring second token c s key := by
  refine ⟨vouched_of_inspect, ?_⟩
  rintro ⟨s, key, h⟩
  obtain ⟨random, hsignature⟩ := h.signed
  unfold inspect
  simp [h.ofText?, h.header, h.found, hsignature, key.pair.verifies_sign, h.payload,
    (checkExpiry_eq_ok_iff hnow).2 h.unexpired, Except.mapError, bind, Except.bind, pure,
    Except.pure]

section Sign

variable {key : SigningKey} {random : Vector UInt8 32} {v : Json} {c : type.Carrier}

theorem ofText?_sign : Segments.ofText? (sign key random v) = some (parts key random v) := by
  rw [sign_eq]
  exact Segments.ofText?_text (point_not_mem_base64Url _) (point_not_mem_base64Url _)

theorem readSegment_header : readSegment Header.ofBytes? (parts key random v).header =
    .ok ⟨key.algorithm.name, some key.kid⟩ :=
  Header.readSegment_toJson (by cases key.algorithm <;> simp [Algorithm.name, algorithmNames])

theorem readSegment_payload (h : claims? type (sign key random v) = some c) :
    readSegment (claimsOfBytes? type.reading) (parts key random v).payload = .ok c := by
  unfold claims? at h
  rw [ofText?_sign, Option.bind_eq_bind, Option.bind_some] at h
  rcases hp : readSegment (claimsOfBytes? type.reading) (parts key random v).payload with e | c' <;>
    rw [hp] at h <;> cases h
  rfl

theorem vouched_sign (hfind : ring.find? key.kid = some key)
    (hclaims : claims? type (sign key random v) = some c)
    (hexp : second < (type.standard c).exp.toInt) :
    Vouched type ring second (sign key random v) c (parts key random v) key where
  segments := by
    rw [sign_eq]
    exact Segments.splitOn_text (point_not_mem_base64Url _) (point_not_mem_base64Url _)
      (point_not_mem_base64Url _)
  header := readSegment_header
  mem := (KeyRing.mem_keys_of_find? hfind).1
  found := hfind
  signed := ⟨random, ofBase64Url?_base64Url _⟩
  payload := readSegment_payload hclaims
  unexpired := hexp

/-- A token is valid before its expiry and at no time from then on. -/
theorem inspect_sign (hfind : ring.find? key.kid = some key)
    (hclaims : claims? type (sign key random v) = some c) (hnow : 0 ≤ second) :
    (second < (type.standard c).exp.toInt →
      inspect type ring second (sign key random v) = .ok c) ∧
    ((type.standard c).exp.toInt ≤ second →
      ∃ r, inspect type ring second (sign key random v) = .error r) := by
  refine ⟨fun hexp => (inspect_eq_ok_iff hnow).2 ⟨_, _, vouched_sign hfind hclaims hexp⟩,
    fun hexp => ?_⟩
  rcases h : inspect type ring second (sign key random v) with r | c'
  · exact ⟨r, rfl⟩
  · obtain ⟨s, _, hv⟩ := vouched_of_inspect h
    -- Whatever is accepted is what the payload says, which has expired.
    obtain rfl := Option.some.inj (ofText?_sign.symm.trans hv.ofText?)
    have hc := (readSegment_payload hclaims).symm.trans hv.payload
    cases hc
    exact absurd hv.unexpired (by omega)

/-- A token of a key that a ring does not have is refused, whatever it carries. -/
theorem inspect_sign_of_find?_eq_none (h : ring.find? key.kid = none) :
    inspect type ring second (sign key random v) = .error (.unknownKid key.kid) := by
  unfold inspect
  simp [ofText?_sign, readSegment_header, h, Except.mapError, bind, Except.bind, throw, throwThe,
    MonadExceptOf.throw]

end Sign

end Jws

namespace Claims

/-- The expiry is the issue plus the lifetime, both cut off at the last second of a claim. -/
theorem toInt_exp_expiringAfter (c : Claims) (lifetime : UInt64) :
    (c.expiringAfter lifetime).exp.toInt =
      min (c.iat.toInt + min (lifetime.toNat : Int) lastClaimSecond) lastClaimSecond := by
  have hlo := c.iat.le_toInt
  simp only [expiringAfter, lifetimeSeconds, lastClaimSecond]
  rw [Int64.toInt_ofInt_of_le (by omega) (by omega)]

end Claims

namespace World

variable {w : World} {replies : Nat → Reply}

theorem complete_sign (replies : Nat → Reply) {key : SigningKey} (h : w.ring.active = some key)
    (payload : Json) :
    ∃ random, complete (Signing.sign payload) w replies =
      (.ok (Jws.sign key random payload), w) := by
  have hkey : w.ring.signingKey = .ok key := by rw [KeyRing.signingKey, h]
  have hrun : (Signing.sign payload).run answer (w, replies) =
      (Operation.ofExcept w.ring.signingKey >>= fun key => Operation.ask (.random 32) >>=
        fun random => pure (Jws.sign key random payload)).run answer
          (w, fun n => replies (n + 1)) := rfl
  refine ⟨(replies 1).bytes 32, ?_⟩
  unfold complete
  rw [hrun, hkey]
  rfl

theorem complete_verify (type : Jws.ClaimType) (token : String) :
    complete (Signing.verify type token) w replies =
      match Jws.inspect type w.ring (replies 1).clock.seconds token with
      | .ok c => (.ok c, w)
      | .error r => (.error (.invalidToken r.message), w) := by
  have hrun : (Signing.verify type token).run answer (w, replies) =
      (Operation.ofExcept (Jws.verify type w.ring (replies 1).clock.seconds token)).run answer
        (w, fun n => replies (n + 2)) := rfl
  unfold complete
  rw [hrun, Jws.verify]
  rcases Jws.inspect type w.ring (replies 1).clock.seconds token with r | c <;> rfl

end World

section RoundTrip

variable {w w' : World} {key : SigningKey} {replies replies' : Nat → Reply} {now : Timestamp}

/-- A token of a key that is still in the ring is valid before its expiry and at no time from then
on. -/
theorem complete_verify_sign {type : Jws.ClaimType} {v : Json} {c : type.Carrier}
    {random : Vector UInt8 32} (replies : Nat → Reply)
    (hkey : key ∈ w.ring.keys) (hkids : (w.ring.keys.map (·.kid)).Nodup)
    (hclock : ∀ n, (replies n).clock = now) (hnow : 0 ≤ now.seconds)
    (hclaims : Jws.claims? type (Jws.sign key random v) = some c) :
    (now.seconds < (type.standard c).exp.toInt →
      World.complete (Signing.verify type (Jws.sign key random v)) w replies = (.ok c, w)) ∧
    ((type.standard c).exp.toInt ≤ now.seconds → ∃ r,
      World.complete (Signing.verify type (Jws.sign key random v)) w replies =
        (.error (.invalidToken r), w)) := by
  obtain ⟨hvalid, hexpired⟩ :=
    Jws.inspect_sign (KeyRing.find?_of_mem hkids hkey) hclaims hnow
  rw [World.complete_verify, hclock]
  refine ⟨fun h => by rw [hvalid h], fun h => ?_⟩
  obtain ⟨r, hr⟩ := hexpired h
  exact ⟨_, by rw [hr]⟩

/-- Signing and verifying gives the claims back until they expire. -/
theorem valid_until_expiry (hactive : w.ring.active = some key) (hkey : key ∈ w'.ring.keys)
    (hkids : (w'.ring.keys.map (·.kid)).Nodup) (hclock : ∀ n, (replies' n).clock = now)
    (hnow : 0 ≤ now.seconds) (c : Claims) (lifetime : Duration) (accessToken : Option String) :
    ∃ (access idToken : String) (exp : Int64),
      World.complete (Signing.signAccess c lifetime) w replies = (.ok access, w) ∧
      World.complete (Signing.signId c lifetime accessToken) w replies = (.ok idToken, w) ∧
      exp.toInt =
        min (c.iat.toInt + min (lifetime.seconds.toNat : Int) lastClaimSecond) lastClaimSecond ∧
      (now.seconds < exp.toInt →
        World.complete (Signing.verify .access access) w' replies' = (.ok { c with exp }, w') ∧
        World.complete (Signing.verify .idToken idToken) w' replies' =
          (.ok ⟨{ c with exp }, accessToken.map atHash⟩, w')) ∧
      (exp.toInt ≤ now.seconds → ∃ r r',
        World.complete (Signing.verify .access access) w' replies' =
          (.error (.invalidToken r), w') ∧
        World.complete (Signing.verify .idToken idToken) w' replies' =
          (.error (.invalidToken r'), w')) := by
  obtain ⟨random, hsign⟩ := World.complete_sign replies hactive
    (c.expiringAfter lifetime.seconds).toJson
  obtain ⟨random', hsign'⟩ := World.complete_sign replies hactive
    (IdClaims.mk (c.expiringAfter lifetime.seconds) (accessToken.map atHash)).toJson
  obtain ⟨hvalid, hexpired⟩ := complete_verify_sign replies' hkey hkids hclock hnow
    (Jws.claims?_access key random (c.expiringAfter lifetime.seconds))
  obtain ⟨hvalid', hexpired'⟩ := complete_verify_sign replies' hkey hkids hclock hnow
    (Jws.claims?_idToken key random' ⟨c.expiringAfter lifetime.seconds, accessToken.map atHash⟩)
  refine ⟨_, _, (c.expiringAfter lifetime.seconds).exp, hsign, hsign',
    c.toInt_exp_expiringAfter lifetime.seconds, fun h => ⟨hvalid h, hvalid' h⟩, fun h => ?_⟩
  obtain ⟨r, hr⟩ := hexpired h
  obtain ⟨r', hr'⟩ := hexpired' h
  exact ⟨r, r', hr, hr'⟩

end RoundTrip

/-- Claims about a user, issued at a second. -/
def Sample.claims (second : Int) : Claims :=
  .start policy.issuer "u1" ["c1"] ⟨second, 0⟩ "j1"

theorem valid_until_expiry_at_issue :
    Sample.world.ring.active = some Sample.key ∧
    Sample.key ∈ Sample.world.ring.keys ∧ (Sample.world.ring.keys.map (·.kid)).Nodup ∧
    ∃ (access : String) (exp : Int64), exp.toInt = 600 ∧
      World.complete (Signing.signAccess (Sample.claims 0) (.ofSeconds 600)) Sample.world
        (fun _ => Sample.reply 1) = (.ok access, Sample.world) ∧
      World.complete (Signing.verify .access access) Sample.world (fun _ => Sample.reply 2) =
        (.ok { Sample.claims 0 with exp }, Sample.world) := by
  have hactive : Sample.world.ring.active = some Sample.key := rfl
  have hkey : Sample.key ∈ Sample.world.ring.keys := List.mem_singleton_self _
  have hkids : (Sample.world.ring.keys.map (·.kid)).Nodup := by decide
  obtain ⟨access, _, exp, hsign, -, hexp, hvalid, -⟩ := @valid_until_expiry Sample.world
    Sample.world _ (fun _ => Sample.reply 1) (fun _ => Sample.reply 2) ⟨0⟩ hactive hkey hkids
    (fun _ => rfl) (by decide) (Sample.claims 0) (.ofSeconds 600) none
  have hexp' : exp.toInt = 600 := hexp.trans (by decide)
  exact ⟨hactive, hkey, hkids, access, exp, hexp', hsign, (hvalid (by rw [hexp']; decide)).1⟩

/-- A lifetime is cut off before it is added to the issue: of claims from before 1970, the longest
one does not reach the last second. -/
theorem longest_lifetime_before_1970 :
    ∃ (access : String) (c : Claims),
      World.complete (Signing.signAccess (Sample.claims (-1)) (.ofSeconds 0xFFFFFFFFFFFFFFFF))
        Sample.world (fun _ => Sample.reply 1) = (.ok access, Sample.world) ∧
      World.complete (Signing.verify .access access) Sample.world (fun _ => Sample.reply 2) =
        (.ok c, Sample.world) ∧
      c.exp.toInt = lastClaimSecond - 1 ∧
      min ((Sample.claims (-1)).iat.toInt + (0xFFFFFFFFFFFFFFFF : UInt64).toNat) lastClaimSecond =
        lastClaimSecond := by
  have hactive : Sample.world.ring.active = some Sample.key := rfl
  have hkey : Sample.key ∈ Sample.world.ring.keys := List.mem_singleton_self _
  have hkids : (Sample.world.ring.keys.map (·.kid)).Nodup := by decide
  have hclock : ∀ _ : Nat, (Sample.reply 2).clock = ⟨0⟩ := fun _ => rfl
  obtain ⟨random, hsign⟩ := World.complete_sign (fun _ => Sample.reply 1) hactive
    ((Sample.claims (-1)).expiringAfter 0xFFFFFFFFFFFFFFFF).toJson
  obtain ⟨hvalid, -⟩ := complete_verify_sign (fun _ => Sample.reply 2) hkey hkids hclock (by decide)
    (Jws.claims?_access Sample.key random ((Sample.claims (-1)).expiringAfter 0xFFFFFFFFFFFFFFFF))
  refine ⟨_, _, hsign, hvalid (by decide), by decide, by decide⟩

end TokenAuthority

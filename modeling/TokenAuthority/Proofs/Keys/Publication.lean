import TokenAuthority.Proofs.Keys.Rotation
import TokenAuthority.Proofs.Token.Signers
import TokenAuthority.Proofs.Wire.KeySets

/-!
# The keys that are published

A ring is read from one end to publish its keys, and from the other to find one. Both come to the
same key as long as no two keys of the ring have the same identifier (`KeyRing.find?_publicKeys`),
which the line of the keys sees to. So what is published is what is trusted
(`published_as_trusted`). The active key is published first, so that the tokens of an exchange can be
verified by whoever asks for the keys when it ends (`resolves_of_exchange`).
-/

namespace TokenAuthority

open Time (Timestamp)

namespace SigningKey

variable (k : SigningKey)

@[simp]
theorem publicKey_kid : k.publicKey.kid = k.kid := by
  unfold publicKey
  split <;> rfl

theorem publicKey_alg : k.publicKey.alg = k.algorithm.name := by
  unfold publicKey
  split
  · rw [‹k.algorithm = .es256›]
    rfl
  · rfl
  · rfl

end SigningKey

namespace KeyRing

/-- Where identifiers are distinct, it makes no difference from which end a key is looked for. -/
theorem find?_kid_perm {l l' : List SigningKey} (hperm : l.Perm l') (h : (l.map (·.kid)).Nodup)
    (kid : String) : l.find? (·.kid == kid) = l'.find? (·.kid == kid) := by
  have h' : (l'.map (·.kid)).Nodup := (hperm.map _).nodup_iff.1 h
  ext key
  rw [find?_kid_iff h, find?_kid_iff h', hperm.mem_iff]

section Publication

variable {ring : KeyRing}

/-- Keys are published newest first. -/
theorem keys_publicKeys (ring : KeyRing) :
    ring.publicKeys.keys = ring.byAge.reverse.map SigningKey.publicKey := by
  rcases ha : ring.active with _ | a <;> simp [publicKeys, byAge, ha]

/-- A key is found among those that are published if and only if it is trusted. -/
theorem find?_publicKeys (h : (ring.keys.map (·.kid)).Nodup) (kid : String) :
    ring.publicKeys.find? kid = (ring.find? kid).map SigningKey.publicKey := by
  have hperm : ring.keys.Perm ring.byAge.reverse := ring.perm_byAge.trans (List.reverse_perm _).symm
  have hkid : (fun k : PublicKey => k.kid == kid) ∘ SigningKey.publicKey = (·.kid == kid) := by
    funext key
    rw [Function.comp_apply, SigningKey.publicKey_kid]
  rw [KeySet.find?, keys_publicKeys, List.find?_map, hkid, find?, find?_kid_perm hperm h]

/-- The active key is found whatever the others are. -/
theorem find?_publicKeys_active {key : SigningKey} (h : ring.active = some key) :
    ring.publicKeys.find? key.kid = some key.publicKey := by
  simp [publicKeys, KeySet.find?, h]

theorem nodup_publicKeys (h : (ring.keys.map (·.kid)).Nodup) :
    (ring.publicKeys.keys.map (·.kid)).Nodup := by
  have hkids : ring.publicKeys.keys.map (·.kid) = (ring.byAge.map (·.kid)).reverse := by
    rw [keys_publicKeys, List.map_map, ← List.map_reverse]
    exact List.map_congr_left fun key _ => key.publicKey_kid
  rw [hkids, List.nodup_reverse]
  exact (ring.perm_byAge.map _).nodup_iff.1 h

/-- What a ring publishes that a line of keys has come to. -/
structure Publishes (ring : KeyRing) (line : List ActiveKey) : Prop where
  /-- A key is found if and only if it is trusted, and then as that key's own. -/
  found : ∀ kid k, ring.publicKeys.find? kid = some k ↔
    ∃ key, ring.key kid = .ok key ∧ k = key.publicKey ∧ k.alg = key.algorithm.name
  distinct : (ring.publicKeys.keys.map (·.kid)).Nodup
  /-- The active key comes first, and then those that have retired. -/
  listed : ring.publicKeys.keys = (ring.active.map (·.publicKey)).toList ++
    ring.retired.reverse.map (·.key.publicKey)
  /-- Of two that have retired, the one that did so later comes first. -/
  ordered : ring.retired.reverse.Pairwise fun k k' =>
    k'.retiredAt.nanoseconds ≤ k.retiredAt.nanoseconds
  /-- They come in the order in which they were put in, last key first. -/
  newest : List.Sublist ring.publicKeys.keys (line.reverse.map (·.key.publicKey))
  decoded : ∃ v, Json.read ring.publicKeys.text = .ok v ∧ KeySet.ofJson v = .ok ring.publicKeys

theorem publishes_ofLine {algorithm : Algorithm} {period : Nat} {retention : Option Nat}
    {line : List ActiveKey} (hspaced : Spaced period line)
    (hfresh : (line.map (·.key.kid)).Nodup) :
    (ofLine algorithm period retention line).Publishes line where
  found kid k := by
    rw [find?_publicKeys (nodup_keys hfresh), key]
    rcases (ofLine algorithm period retention line).find? kid with _ | key
    · exact ⟨nofun, fun ⟨_, h, _⟩ => nomatch h⟩
    constructor
    · rintro ⟨⟩
      exact ⟨key, rfl, rfl, key.publicKey_alg⟩
    · rintro ⟨_, ⟨⟩, rfl, -⟩
      rfl
  distinct := nodup_publicKeys (nodup_keys hfresh)
  listed := by
    rcases ha : (ofLine algorithm period retention line).active with _ | key <;>
      simp [publicKeys, ha, List.map_reverse]
  ordered := List.pairwise_reverse.2 (pairwise_retired hspaced)
  newest := by
    rw [keys_publicKeys]
    simpa [List.map_reverse, Function.comp_def] using
      (sublist_byAge.map SigningKey.publicKey).reverse
  decoded := ⟨_, KeySet.read_text _, KeySet.ofJson_toJson _⟩

end Publication

end KeyRing

/-- Whoever asks for the public keys gets the one that has signed a token, by what the token's
header says. -/
def World.Resolves (w : World) (token : String) : Prop :=
  ∃ key random payload, token = Jws.sign key random payload ∧
    ∃ kid s, Jws.kid? token = some kid ∧
      (∀ replies, World.complete Endpoint.publicKeys w replies = (.ok s, w)) ∧
      s.find? kid = some key.publicKey

theorem resolves_of_exchange {e : Endpoint} {r : TokenRequest} {w w' : World}
    {replies : Nat → Reply} {t : TokenResponse}
    (ho : World.complete (e.exchange r) w replies = (.ok t, w')) :
    (∀ token ∈ t.signed, w'.Resolves token) ∧ Jws.kid? t.refreshToken = none := by
  have hyields : (World.complete (e.exchange r) w replies).1.Yields fun t =>
      ∃ s : TokenSet, s.MadeUnder (World.complete (e.exchange r) w replies).2.ring ∧
        t = .ofTokenSet s :=
    (yields_made (G := fun _ => True) e r w).complete fun _ => trivial
  rw [ho] at hyields
  obtain ⟨s, hmade, rfl⟩ := hyields
  constructor
  · obtain ⟨key, hkey, hsigned⟩ := hmade.signed
    intro token htoken
    obtain ⟨random, payload, rfl⟩ := hsigned token htoken
    exact ⟨key, random, payload, rfl, key.kid, w'.ring.publicKeys, Jws.kid?_sign _ _ _,
      fun _ => rfl, KeyRing.find?_publicKeys_active hkey⟩
  · obtain ⟨bytes, hdrawn⟩ := hmade.drawn
    exact (congrArg Jws.kid? hdrawn).trans (Jws.kid?_secretText bytes)

/-- Whatever keys are put in, in whatever order the calls come, those that are published are those
that are trusted; and the signed tokens of an exchange by itself name one of them. The refresh token
names no key. -/
theorem published_as_trusted {w : World} {algorithm : Algorithm} {period : Nat}
    {retention : Option Nat} (hw : w.ring = .empty algorithm period retention) {moves : List Move}
    (hfresh : ((System.start w).run moves).madeKids.Nodup) :
    ((System.start w).run moves).world.ring.Publishes ((System.start w).line moves) ∧
      ∀ (e : Endpoint) (r : TokenRequest) (w₀ w' : World) (replies : Nat → Reply)
        (t : TokenResponse), World.complete (e.exchange r) w₀ replies = (.ok t, w') →
        (∀ token ∈ t.signed, w'.Resolves token) ∧ Jws.kid? t.refreshToken = none := by
  obtain ⟨hring, hspaced⟩ := System.ring_run hw moves
  refine ⟨?_, fun e r w₀ w' replies t ho => resolves_of_exchange ho⟩
  rw [hring]
  exact KeyRing.publishes_ofLine hspaced (System.nodup_line hfresh)

/-- Of two requests that replace a key one does, so that two keys are published. An exchange of a
code gives two signed tokens. -/
theorem published_as_trusted_race :
    ((System.start Sample.keyless).run Sample.rotations).world.ring.publicKeys.keys.map (·.alg) =
      ["ES256", "ES256"] ∧
    ((System.start Sample.keyless).run Sample.rotations).world.ring.Publishes
      ((System.start Sample.keyless).line Sample.rotations) ∧
    ∃ t w', World.complete (Sample.endpoint.exchange Sample.codeRequest) Sample.consented
        (fun _ => Sample.reply 2) = (.ok t, w') ∧
      t.signed.length = 2 ∧ (∀ token ∈ t.signed, w'.Resolves token) ∧
      Jws.kid? t.refreshToken = none := by
  have hfresh : ((System.start Sample.keyless).run Sample.rotations).madeKids.Nodup := by
    decide +kernel
  have hsigned : decide ((World.complete (Sample.endpoint.exchange Sample.codeRequest)
      Sample.consented fun _ => Sample.reply 2).1.Yields fun t => t.signed.length = 2) = true := by
    decide +kernel
  have hkind : (World.complete (Sample.endpoint.exchange Sample.codeRequest) Sample.consented
      fun _ => Sample.reply 2).1.kind = .ok () := by
    decide +kernel
  obtain ⟨hpublishes, hresolves⟩ := published_as_trusted rfl hfresh
  obtain ⟨t, ht⟩ := Outcome.kind_eq_ok.1 hkind
  have ho := World.complete_eq ht
  rw [ht] at hsigned
  exact ⟨by decide +kernel, hpublishes, t, _, ho, of_decide_eq_true hsigned,
    hresolves _ _ _ _ _ _ ho⟩

end TokenAuthority

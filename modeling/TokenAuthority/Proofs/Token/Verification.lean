import Mathlib.Data.List.Nodup
import TokenAuthority.Authority
import TokenAuthority.Proofs.Token.Carriage
import TokenAuthority.Signing

/-!
# What a verified token proves

Verification takes any text. If it accepts one, a key of the ring has signed it and it carries the
claims (`Jws.Vouched`, `Jws.vouched_of_inspect`): the checks are passed one after the other, the
scheme lets nothing pass but signatures of the key (`KeyPair.verifies_iff`), and the members of
the payload are what they are read as (`Claims.standIn_of_reads`). Of the ring it asks only for the
key that the token names (`Jws.inspect_congr`).
-/

namespace TokenAuthority

open Encoding Json

namespace KeyRing

variable {ring : KeyRing} {key : SigningKey}

theorem mem_keys_of_find? {kid : String} (h : ring.find? kid = some key) :
    key ∈ ring.keys ∧ key.kid = kid :=
  ⟨List.mem_of_find?_eq_some h, by simpa using List.find?_some h⟩

theorem find?_kid_iff {l : List SigningKey} {kid : String} (h : (l.map (·.kid)).Nodup) :
    l.find? (·.kid == kid) = some key ↔ key ∈ l ∧ key.kid = kid := by
  constructor
  · intro hk
    exact ⟨List.mem_of_find?_eq_some hk, by simpa using List.find?_some hk⟩
  · rintro ⟨hk, rfl⟩
    obtain ⟨k', hk'⟩ : ∃ k', l.find? (·.kid == key.kid) = some k' := by
      rw [← Option.isSome_iff_exists, List.find?_isSome]
      exact ⟨key, hk, beq_self_eq_true _⟩
    have hkid : k'.kid = key.kid := by simpa using List.find?_some hk'
    rw [hk', List.inj_on_of_nodup_map h (List.mem_of_find?_eq_some hk') hk hkid]

theorem find?_of_mem (hkids : (ring.keys.map (·.kid)).Nodup) (h : key ∈ ring.keys) :
    ring.find? key.kid = some key := (find?_kid_iff hkids).2 ⟨h, rfl⟩

end KeyRing

namespace Claims

/-- What stands in an object that claims were read from; a nonce need not be there. -/
structure StandIn (c : Claims) (ms : List (String × Json)) : Prop where
  iss : Json.members "iss" ms = [.str c.iss]
  sub : Json.members "sub" ms = [.str c.sub]
  aud : Json.members "aud" ms = [.arr (c.aud.map .str)]
  iat : Json.members "iat" ms = [.int c.iat.toInt]
  exp : Json.members "exp" ms = [.int c.exp.toInt]
  jti : Json.members "jti" ms = [.str c.jti]
  scope : Json.members "scope" ms = [.str c.scope]
  clientId : Json.members "client_id" ms = [.str c.clientId]
  nonce : Json.members "nonce" ms = [.str c.nonce] ∨ Json.members "nonce" ms = [] ∧ c.nonce = ""

instance : Stays fields := by
  unfold fields
  infer_instance

theorem standIn_of_reads {c : Claims} {ms : List (String × Json)}
    (h : Reads fields (.members ms) c) : c.StandIn ms := by
  simp only [fields, reads_seq_iff, reads_map_iff, reads_required_iff] at h
  -- The last field stands outermost.
  obtain ⟨_, nonce, h, hnonce, rfl⟩ := h
  obtain ⟨_, _, h, ⟨_, hclient, hclient'⟩, rfl⟩ := h
  obtain ⟨_, _, h, ⟨_, hscope, hscope'⟩, rfl⟩ := h
  obtain ⟨_, _, h, ⟨_, hjti, hjti'⟩, rfl⟩ := h
  obtain ⟨_, _, h, ⟨_, hexp, hexp'⟩, rfl⟩ := h
  obtain ⟨_, _, h, ⟨_, hiat, hiat'⟩, rfl⟩ := h
  obtain ⟨_, _, h, ⟨_, haud, haud'⟩, rfl⟩ := h
  obtain ⟨_, _, h, ⟨_, hsub, hsub'⟩, rfl⟩ := h
  obtain ⟨_, ⟨_, hiss, hiss'⟩, rfl⟩ := h
  refine ⟨eq_str_of_readText hiss' ▸ hiss, eq_str_of_readText hsub' ▸ hsub,
    eq_texts_of_readList haud' ▸ haud, eq_int_of_readInt64 hiat' ▸ hiat,
    eq_int_of_readInt64 hexp' ▸ hexp, eq_str_of_readText hjti' ▸ hjti,
    eq_str_of_readText hscope' ▸ hscope, eq_str_of_readText hclient' ▸ hclient, ?_⟩
  obtain ⟨hnone, habsent⟩ | ⟨v, hv, hread⟩ := reads_field_cases hnonce
  · cases habsent
    exact .inr ⟨hnone, rfl⟩
  · exact .inl (eq_str_of_readText hread ▸ hv)

end Claims

namespace Jws

theorem point_not_mem_of_decoded {s : String} {bytes : List UInt8}
    (h : ofBase64Url? s = some bytes) : '.' ∉ s.toList :=
  Base64Url.eq_encode_of_decode h ▸ point_not_mem_encode bytes

namespace Segments

theorem splitLast_eq_some {s a b : List Char} (h : splitLast s = some (a, b)) :
    s = a ++ '.' :: b ∧ '.' ∉ b := by
  have hcut := List.takeWhile_append_dropWhile (p := fun c => decide (c ≠ '.')) (l := s.reverse)
  have hfree : '.' ∉ s.reverse.takeWhile (· ≠ '.') := fun hmem => by
    simpa using List.all_eq_true.1 List.all_takeWhile _ hmem
  rcases hd : s.reverse.dropWhile (· ≠ '.') with _ | ⟨c, rest⟩
  · rw [hd, List.append_nil] at hcut
    unfold splitLast at h
    simp only [hcut, List.reverse_reverse, if_true] at h
    cases h
  · obtain rfl : c = '.' := by
      have := List.head?_dropWhile_not (fun c => decide (c ≠ '.')) s.reverse
      rw [hd] at this
      simpa using this
    have hs : s = rest.reverse ++ '.' :: (s.reverse.takeWhile (· ≠ '.')).reverse := by
      have := congrArg List.reverse hcut
      rw [hd] at this
      simpa using this.symm
    have hsplit := splitLast_append (s := rest.reverse) (mt List.mem_reverse.1 hfree)
    rw [← hs, h] at hsplit
    cases hsplit
    exact ⟨hs, mt List.mem_reverse.1 hfree⟩

theorem text_of_ofText? {t : String} {s : Segments} (h : ofText? t = some s) : t = s.text := by
  unfold ofText? at h
  simp only [Option.bind_eq_bind, Option.bind_eq_some_iff] at h
  obtain ⟨⟨rest, signature⟩, h1, ⟨header, payload⟩, h2, h⟩ := h
  cases h
  dsimp only at h2 ⊢
  obtain ⟨ht, -⟩ := splitLast_eq_some h1
  obtain ⟨hr, -⟩ := splitLast_eq_some h2
  rw [← String.toList_inj, ht, hr]
  simp [text, message]

/-- A text whose segments hold no point is cut at its points. -/
theorem splitOn_text {s : Segments} (hh : '.' ∉ s.header.toList) (hp : '.' ∉ s.payload.toList)
    (hs : '.' ∉ s.signature.toList) : s.text.toList.splitOn '.' =
      [s.header.toList, s.payload.toList, s.signature.toList] := by
  have htext : s.text.toList =
      ['.'].intercalate [s.header.toList, s.payload.toList, s.signature.toList] := by
    simp [text, message, List.intercalate, List.intersperse]
  rw [htext]
  refine List.splitOn_intercalate '.' ?_ (by simp)
  simp [hh, hp, hs]

end Segments

theorem readSegment_eq_ok {α : Type} {ofBytes? : List UInt8 → Option α} {segment : String} {a : α}
    (h : readSegment ofBytes? segment = .ok a) :
    ∃ bytes, ofBase64Url? segment = some bytes ∧ ofBytes? bytes = some a := by
  unfold readSegment at h
  rcases hb : ofBase64Url? segment with _ | bytes <;> rw [hb] at h
  · cases h
  · refine ⟨bytes, rfl, ?_⟩
    dsimp only at h
    rcases ha : ofBytes? bytes with _ | b <;> rw [ha] at h <;> cases h
    rfl

/-- The key that a token names in its header. -/
def kid? (token : String) : Option String := do
  let parts ← Segments.ofText? token
  let header ← (readSegment Header.ofBytes? parts.header).toOption
  header.kid

/-- A key of a ring has signed a token, which carries claims that have not expired by a second. -/
structure Vouched (type : ClaimType) (ring : KeyRing) (second : Int) (token : String)
    (c : type.Carrier) (s : Segments) (key : SigningKey) : Prop where
  segments : token.toList.splitOn '.' = [s.header.toList, s.payload.toList, s.signature.toList]
  header : readSegment Header.ofBytes? s.header = .ok ⟨key.algorithm.name, some key.kid⟩
  mem : key ∈ ring.keys
  found : ring.find? key.kid = some key
  signed : ∃ random, ofBase64Url? s.signature = some (key.pair.sign random (utf8 s.message))
  payload : readSegment (claimsOfBytes? type.reading) s.payload = .ok c
  unexpired : second < (type.standard c).exp.toInt

variable {type : ClaimType} {ring ring' : KeyRing} {second : Int} {token : String}

theorem checkExpiry_eq_ok {c : Claims} (h : checkExpiry second c = .ok ()) :
    second < c.exp.toInt := by
  unfold checkExpiry Claims.expired at h
  split_ifs at h with _ _ hexpired
  simpa using hexpired

theorem vouched_of_inspect {c : type.Carrier} (h : inspect type ring second token = .ok c) :
    ∃ s key, Vouched type ring second token c s key := by
  unfold inspect at h
  rcases hs : Segments.ofText? token with _ | s <;> rw [hs] at h
  · cases h
  dsimp only [Except.mapError, bind, Except.bind] at h
  rcases hheader : readSegment Header.ofBytes? s.header with e | ⟨algorithm, kid⟩ <;>
    rw [hheader] at h
  · cases h
  rcases kid with _ | kid
  · cases h
  dsimp only at h
  rcases hfind : ring.find? kid with _ | key <;> rw [hfind] at h
  · cases h
  obtain ⟨hmem, rfl⟩ := KeyRing.mem_keys_of_find? hfind
  dsimp only at h
  split_ifs at h with halg
  obtain rfl := not_not.1 halg
  rcases hsignature : ofBase64Url? s.signature with _ | signature <;> rw [hsignature] at h
  · cases h
  dsimp only at h
  split_ifs at h with hverifies
  rcases hpayload : readSegment (claimsOfBytes? type.reading) s.payload with e | c' <;>
    rw [hpayload] at h
  · cases h
  dsimp only at h
  rcases hexpiry : checkExpiry second (type.standard c') with e | ⟨⟩ <;> rw [hexpiry] at h <;>
    cases h
  obtain ⟨_, hheader', -⟩ := readSegment_eq_ok hheader
  obtain ⟨_, hpayload', -⟩ := readSegment_eq_ok hpayload
  obtain ⟨random, rfl⟩ := key.pair.verifies_iff.1 (by simpa using hverifies)
  refine ⟨s, key, ?_, hheader, hmem, hfind, ⟨random, hsignature⟩, hpayload,
    checkExpiry_eq_ok hexpiry⟩
  rw [Segments.text_of_ofText? hs]
  exact Segments.splitOn_text (point_not_mem_of_decoded hheader')
    (point_not_mem_of_decoded hpayload') (point_not_mem_of_decoded hsignature)

theorem inspect_congr (h : ∀ kid, kid? token = some kid → ring.find? kid = ring'.find? kid) :
    inspect type ring second token = inspect type ring' second token := by
  unfold inspect
  rcases hs : Segments.ofText? token with _ | s
  · rfl
  dsimp only [Except.mapError, bind, Except.bind]
  rcases hheader : readSegment Header.ofBytes? s.header with e | ⟨algorithm, _ | kid⟩
  · rfl
  · rfl
  · have hkid : ring.find? kid = ring'.find? kid :=
      h kid (by simp [kid?, hs, hheader, Except.toOption])
    dsimp only
    rw [hkid]

theorem exists_members_of_payload {segment : String} {c : type.Carrier}
    (h : readSegment (claimsOfBytes? type.reading) segment = .ok c) :
    ∃ ms, readSegment valueOfBytes? segment = .ok (.obj ms) ∧ type.reading (.obj ms) = .ok c := by
  obtain ⟨bytes, hbytes, h⟩ := readSegment_eq_ok h
  unfold claimsOfBytes? at h
  rcases hv : valueOfBytes? bytes with _ | v <;> rw [hv] at h
  · cases h
  simp only [Option.bind_eq_bind, Option.bind_some] at h
  unfold readClaims at h
  split at h
  · rename_i ms
    refine ⟨ms, by simp [readSegment, hbytes, hv], ?_⟩
    split_ifs at h
    · rcases hc : type.reading (.obj ms) with e | c' <;> rw [hc] at h <;> cases h
      rfl
    · cases h
  · cases h

end Jws

/-- What verification of one type of claims promises of every text, key ring and time. -/
structure Jws.SoundlyVerified (type : ClaimType) : Prop where
  /-- It answers with claims or refuses the token, and changes nothing. -/
  answers : ∀ (a : Authority) (token : String), ∃ o, a.run (Signing.verify type token) = (o, a) ∧
    ((∃ c, o = .ok c) ∨ ∃ r, o = .error (.invalidToken r))
  /-- What it accepts has been signed by a key of the ring and carries the claims. -/
  vouched : ∀ (a : Authority) (token : String) (c : type.Carrier),
    (a.run (Signing.verify type token)).1 = .ok c →
    ∃ s key ms, Vouched type a.ring a.clock.seconds token c s key ∧
      readSegment valueOfBytes? s.payload = .ok (.obj ms) ∧ (type.standard c).StandIn ms
  /-- It depends on no key but the one that the token names. -/
  keyed : ∀ (a a' : Authority) (token : String), a.clock.seconds = a'.clock.seconds →
    (∀ kid, kid? token = some kid → a.ring.find? kid = a'.ring.find? kid) →
    (a.run (Signing.verify type token)).1 = (a'.run (Signing.verify type token)).1

namespace Authority

theorem run_verify (a : Authority) (type : Jws.ClaimType) (token : String) :
    a.run (Signing.verify type token) =
      match Jws.inspect type a.ring a.clock.seconds token with
      | .ok c => (.ok c, a)
      | .error r => (.error (.invalidToken r.message), a) := by
  show ((Operation.ofExcept (Jws.verify type a.ring a.clock.seconds token)).run perform a) = _
  unfold Jws.verify
  rcases Jws.inspect type a.ring a.clock.seconds token with r | c <;> rfl

end Authority

theorem Jws.soundlyVerified {type : ClaimType}
    (hstand : ∀ ms c, type.reading (.obj ms) = .ok c → (type.standard c).StandIn ms) :
    SoundlyVerified type where
  answers a token := by
    rw [a.run_verify]
    rcases inspect type a.ring a.clock.seconds token with r | c
    · exact ⟨_, rfl, .inr ⟨_, rfl⟩⟩
    · exact ⟨_, rfl, .inl ⟨c, rfl⟩⟩
  vouched a token c h := by
    rw [a.run_verify] at h
    rcases hi : inspect type a.ring a.clock.seconds token with r | c' <;> rw [hi] at h <;> cases h
    obtain ⟨s, key, hv⟩ := vouched_of_inspect hi
    obtain ⟨ms, hms, hread⟩ := exists_members_of_payload hv.payload
    exact ⟨s, key, ms, hv, hms, hstand ms c hread⟩
  keyed a a' token hclock h := by
    rw [a.run_verify, a'.run_verify, inspect_congr h, hclock]
    split <;> rfl

theorem verification_sound :
    Jws.SoundlyVerified .access ∧ Jws.SoundlyVerified .idToken := by
  constructor
  · exact Jws.soundlyVerified fun ms c h => Claims.standIn_of_reads (reads_of_readObject h)
  · refine Jws.soundlyVerified fun ms c h => ?_
    obtain ⟨_, _, hmk, -, rfl⟩ := reads_seq_iff.1 (reads_of_readObject h)
    obtain ⟨claims, hclaims, rfl⟩ := reads_map_iff.1 hmk
    exact Claims.standIn_of_reads hclaims

end TokenAuthority

import TokenAuthority.Proofs.Keys.Custody

/-!
# The algorithm of the keys

A request makes a key with the algorithm of the ring that it has seen, and puts in no other key than
the one it has made (`sighted`). So all keys that come to a ring have the ring's own algorithm,
in whatever order the calls of requests come (`KeyRing.Uses`, `uses_run`).
-/

namespace TokenAuthority

open Operation Time

variable {α : Type}

namespace KeyRing

/-- The ring makes keys with an algorithm, and has no others. -/
structure Uses (ring : KeyRing) (a : Algorithm) : Prop where
  algorithm : ring.algorithm = a
  keys : ∀ key ∈ ring.keys, key.algorithm = a

variable {ring : KeyRing} {a : Algorithm} {key : SigningKey} {now : Timestamp}

theorem uses_empty (a : Algorithm) (period : Nat) (retention : Option Nat) :
    (empty a period retention).Uses a := ⟨rfl, nofun⟩

theorem Uses.install (h : ring.Uses a) (hkey : key.algorithm = a) :
    (ring.install key now).2.Uses a := by
  unfold KeyRing.install
  rcases hactive : ring.active with _ | k
  · refine ⟨h.algorithm, fun k hk => ?_⟩
    rcases List.mem_cons.1 hk with rfl | hk
    · exact hkey
    · exact h.keys k (List.mem_append_right _ hk)
  · exact h

theorem mem_of_mem_replace {k : SigningKey} (hk : k ∈ (ring.replace key now).keys) :
    k = key ∨ k ∈ ring.keys := by
  rcases List.mem_cons.1 hk with rfl | hk
  · exact .inl rfl
  · obtain ⟨k, hretired, rfl⟩ := List.mem_map.1 hk
    refine .inr ?_
    rcases List.mem_append.1 (List.mem_filter.1 hretired).1 with hold | hnew
    · exact List.mem_append_right _ (List.mem_map_of_mem (f := RetiredKey.key) hold)
    · obtain ⟨a, ha, rfl⟩ := Option.map_eq_some_iff.1 (Option.mem_toList.1 hnew)
      simp [keys, ha]

theorem Uses.rotate (h : ring.Uses a) (hkey : key.algorithm = a) :
    (ring.rotate key now).2.Uses a := by
  unfold KeyRing.rotate
  split_ifs
  · refine ⟨h.algorithm, fun k hk => ?_⟩
    rcases mem_of_mem_replace hk with rfl | hk
    · exact hkey
    · exact h.keys k hk
  · exact h

end KeyRing

/-- What a request knows of the ring that it has seen last, and of the key that it has made. -/
structure Sight where
  algorithm : Option Algorithm
  key : Option SigningKey

/-- Keys are made with the algorithm that was seen, and put in if they were made. -/
def sighted : Discipline Sight where
  allows φ
    | .generateKey a _ => φ.algorithm = some a
    | .installKey key _ | .rotateKey key _ => φ.key = some key
    | _ => True
  next φ
    | .ring, ring => { φ with algorithm := some ring.algorithm }
    | .generateKey _ _, .ok key => { φ with key := some key }
    | _, _ => φ

section Obeys

variable {φ : Sight} {now : Timestamp}

theorem allows_sighted (φ : Sight) (c : Call) (h : c.IsIdle) : sighted.allows φ c := by
  cases c with
  | generateKey | installKey | rotateKey => exact h.elim
  | _ => trivial

theorem Operation.Idle.sighted (x : Operation α) [h : Idle x] :
    x.Obeys sighted (fun _ _ => True) φ := obeys_idle allows_sighted h.obeys

theorem sighted_generateKey {a : Algorithm} (h : φ.algorithm = some a) :
    (Signing.generateKey a now).Obeys sighted
      (fun ψ o => ∀ key, o = .ok key → ψ.key = some key) φ := by
  unfold Signing.generateKey
  refine ⟨h, ?_⟩
  rintro (e | key) -
  · exact nofun
  · rintro _ ⟨⟩
    rfl

theorem sighted_rotateIfDue : (Signing.rotateIfDue now).Obeys sighted (fun _ _ => True) φ := by
  unfold Signing.rotateIfDue
  refine obeys_call trivial fun ring => ?_
  split_ifs
  · refine (sighted_generateKey rfl).bind ?_
    rintro ψ (key | e | _) hkey
    · refine obeys_call (hkey key rfl) fun rotated => ?_
      split_ifs
      · exact obeys_call trivial fun _ => trivial
      · trivial
    · trivial
    · trivial
  · trivial

theorem sighted_installKey : (Signing.installKey now).Obeys sighted (fun _ _ => True) φ := by
  unfold Signing.installKey
  refine obeys_call trivial fun ring => ?_
  split
  · trivial
  · refine (sighted_generateKey rfl).bind ?_
    rintro ψ (key | e | _) hkey
    · exact obeys_call (hkey key rfl) fun _ => trivial
    · trivial
    · trivial

theorem sighted_afterRotation (grant : Operation α) [Idle grant] :
    (Endpoint.afterRotation grant).Obeys sighted (fun _ _ => True) φ := by
  unfold Endpoint.afterRotation
  refine obeys_call trivial fun now => .attempt sighted_rotateIfDue ?_ ?_ fun _ _ => trivial
  · exact fun _ _ _ => Idle.sighted grant
  · exact fun _ _ _ => Idle.sighted grant

theorem sighted_exchange (e : Endpoint) (r : TokenRequest) :
    (e.exchange r).Obeys sighted (fun _ _ => True) φ := by
  unfold Endpoint.exchange
  split_ifs
  · exact sighted_afterRotation _
  · exact sighted_afterRotation _
  · trivial

end Obeys

def keySights : Regime Sight where
  discipline := sighted
  start _ := ⟨none, none⟩
  Fits _ _ _ := True
  obeys r := by
    cases r with
    | exchange e r => exact sighted_exchange e r
    | token e r =>
      exact .attempt (sighted_exchange e r) (fun _ _ _ => trivial) (fun _ _ _ => trivial)
        fun _ _ => trivial
    | installKey now => exact sighted_installKey
    | rotateIfDue now => exact sighted_rotateIfDue
    | issue r p now => exact Idle.sighted (Issuance.issue r p now)
    | refresh r p now => exact Idle.sighted (Rotation.refresh r p now)
    | revoke t => exact Idle.sighted (Endpoint.revoke t)
    | issueCode r p now => exact Idle.sighted (Codes.issue p r now)
    | redeem r p now => exact Idle.sighted (Codes.redeem p r now)
    | userinfo t => exact Idle.sighted (Endpoint.userinfo t)
    | publicKeys => exact Idle.sighted Endpoint.publicKeys
    | signAccess c l => exact Idle.sighted (Signing.signAccess c l)
    | signId c l t => exact Idle.sighted (Signing.signId c l t)
    | verifyAccess t => exact Idle.sighted (Signing.verify .access t)
    | verifyId t => exact Idle.sighted (Signing.verify .idToken t)

/-- What a request knows is of one algorithm. -/
structure Sight.Of (φ : Sight) (a : Algorithm) : Prop where
  algorithm : ∀ b, φ.algorithm = some b → b = a
  key : ∀ key, φ.key = some key → key.algorithm = a

/-- A call that a request makes keeps the ring and what it knows to one algorithm. -/
theorem Sight.Of.perform {a : Algorithm} {w : World} {φ : Sight} (hw : w.ring.Uses a)
    (hφ : φ.Of a) (reply : Reply) {c : Call} (hc : sighted.allows φ c) :
    (w.perform reply c).2.ring.Uses a ∧ (sighted.next φ c (w.perform reply c).1).Of a := by
  cases c with
  | store c =>
    unfold World.perform
    rcases reply.storeFailure with _ | e <;> exact ⟨hw, hφ⟩
  | ring =>
    refine ⟨hw, fun b hb => ?_, hφ.key⟩
    exact (Option.some.inj hb).symm.trans hw.algorithm
  | generateKey b now =>
    obtain rfl : b = a := hφ.algorithm b hc
    unfold World.perform
    rcases reply.keyFailure with _ | e
    · refine ⟨hw, hφ.algorithm, fun key hkey => ?_⟩
      rw [← Option.some.inj hkey]
      rfl
    · exact ⟨hw, hφ⟩
  | installKey key now => exact ⟨hw.install (hφ.key key hc), hφ⟩
  | rotateKey key now => exact ⟨hw.rotate (hφ.key key hc), hφ⟩
  | _ => exact ⟨hw, hφ⟩

theorem keySights_keeps (a : Algorithm) :
    keySights.Keeps (fun w ph => w.ring.Uses a ∧ ∀ φ ∈ ph, φ.Of a) fun _ => True where
  start w ph r := by
    rintro ⟨hw, hph⟩
    refine ⟨hw, fun φ hφ => ?_⟩
    rcases List.mem_append.1 hφ with hφ | hφ
    · exact hph φ hφ
    · rw [List.mem_singleton.1 hφ]
      exact ⟨nofun, nofun⟩
  register _ _ _ _ h := h
  call w ph i φ c reply := by
    rintro ⟨hw, hph⟩ hi hc -
    obtain ⟨hring, hnext⟩ := (hph φ (List.mem_of_getElem? hi)).perform hw reply hc
    refine ⟨hring, fun ψ hψ => ?_⟩
    rcases List.mem_or_eq_of_mem_set hψ with hψ | rfl
    · exact hph ψ hψ
    · exact hnext

/-- A ring that begins with keys of its algorithm never gets others. -/
theorem uses_run {w : World} {a : Algorithm} (hw : w.ring.Uses a) (moves : List Move) :
    ((System.start w).run moves).world.ring.Uses a :=
  ((keySights_keeps a).of_start ⟨hw, nofun⟩ fun _ _ _ => trivial).1

end TokenAuthority

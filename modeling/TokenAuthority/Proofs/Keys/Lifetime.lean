import TokenAuthority.Proofs.Keys.Rotation
import TokenAuthority.Proofs.Token.Minting
import TokenAuthority.Proofs.Token.Validity

/-!
# Keys outlive tokens

A key is retired as of the instant for which its successor was asked, and goes on to sign until the
successor is there. So it may have signed tokens since its retirement, for as long as it takes to
put in a key (`Handover`). A ring whose retention is unset, or exceeds the lifetimes of tokens by
that much, has the key of a token until the token expires (`no_token_outlives_its_key`): keys come
for instants that the clock has shown (`System.mem_shown_of_mem_line`), so that the youngest of them
is not older than the retirement by the retention. A retention that is just as long as the lifetimes
is too short (`key_dropped_before_token_expires`).
-/

namespace TokenAuthority

open Operation Time

/-- What the clock shows in a move. A new key is asked for at the present instant. -/
def Move.shown? : Move → Option Timestamp
  | start (.installKey now) | start (.rotateIfDue now) => some now
  | step _ reply => some reply.clock
  | _ => none

def Time.Steady (shown : List Timestamp) : Prop :=
  shown.Pairwise fun t t' => t.nanoseconds ≤ t'.nanoseconds

instance (shown : List Timestamp) : Decidable (Steady shown) :=
  inferInstanceAs (Decidable (shown.Pairwise _))

section Timekeeping

/-- A key is put in for an instant that a request was given or has read from the clock; the phases
are these instants. -/
def timekeeping : Discipline (List Timestamp) where
  allows known
    | .installKey _ now | .rotateKey _ now => now ∈ known
    | _ => True
  next known c a :=
    match c, a with
    | .clock, now => known ++ [now]
    | _, _ => known

theorem allows_timekeeping (known : List Timestamp) (c : Call) (h : c.IsIdle) :
    timekeeping.allows known c := by
  cases c with
  | generateKey | installKey | rotateKey => exact h.elim
  | _ => trivial

theorem mem_phase_timekeeping {now : Timestamp} : ∀ {past : List Event} {known : List Timestamp},
    now ∈ timekeeping.phase known past → now ∈ known ∨ ⟨.clock, now⟩ ∈ past
  | [], _, h => .inl h
  | ⟨c, a⟩ :: past, known, h => by
    have hlater : now ∈ timekeeping.phase (timekeeping.next known c a) past := h
    rcases mem_phase_timekeeping hlater with h | h
    · cases c with
      | clock =>
        rcases List.mem_append.1 h with h | h
        · exact .inl h
        · cases List.mem_singleton.1 h
          exact .inr List.mem_cons_self
      | _ => exact .inl h
    · exact .inr (List.mem_cons_of_mem _ h)

variable {now : Timestamp} {known : List Timestamp}

theorem obeys_generateKey_timekeeping {algorithm : Algorithm} :
    (Signing.generateKey algorithm now).Obeys timekeeping (fun known' _ => known' = known)
      known := by
  unfold Signing.generateKey
  refine ⟨trivial, ?_⟩
  rintro (e | key) - <;> rfl

theorem obeys_rotateIfDue_timekeeping (h : now ∈ known) :
    (Signing.rotateIfDue now).Obeys timekeeping (fun _ _ => True) known := by
  unfold Signing.rotateIfDue
  refine obeys_call trivial fun ring => ?_
  split_ifs
  · refine obeys_generateKey_timekeeping.bind ?_
    rintro _ (key | e | _) rfl
    · refine obeys_call h fun rotated => ?_
      cases rotated with
      | false => trivial
      | true => exact obeys_call trivial fun _ => trivial
    · trivial
    · trivial
  · trivial

theorem obeys_installKey_timekeeping (h : now ∈ known) :
    (Signing.installKey now).Obeys timekeeping (fun _ _ => True) known := by
  unfold Signing.installKey
  refine obeys_call trivial fun ring => ?_
  rcases ring.active with _ | key
  · refine obeys_generateKey_timekeeping.bind ?_
    rintro _ (key | e | _) rfl
    · exact obeys_call h fun _ => trivial
    · trivial
    · trivial
  · trivial

theorem obeys_exchange_timekeeping (e : Endpoint) (r : TokenRequest) :
    (e.exchange r).Obeys timekeeping (fun _ _ => True) [] := by
  have hgrant : ∀ {grant : Operation TokenResponse} [Idle grant],
      (Endpoint.afterRotation grant).Obeys timekeeping (fun _ _ => True) [] := by
    intro grant hidle
    unfold Endpoint.afterRotation
    refine obeys_call trivial fun now => ?_
    refine .attempt (obeys_rotateIfDue_timekeeping List.mem_cons_self) ?_ ?_ fun _ _ => trivial
    · exact fun _ _ _ => obeys_idle allows_timekeeping hidle.obeys
    · exact fun _ _ _ => obeys_idle allows_timekeeping hidle.obeys
  unfold Endpoint.exchange
  split_ifs
  · exact hgrant
  · exact hgrant
  · trivial

def timekeeper : Regime (List Timestamp) where
  discipline := timekeeping
  start
    | .installKey now | .rotateIfDue now => [now]
    | _ => []
  Fits _ _ _ := True
  obeys r := by
    cases r with
    | exchange e r => exact obeys_exchange_timekeeping e r
    | token e r =>
      exact .attempt (obeys_exchange_timekeeping e r) (fun _ _ _ => trivial)
        (fun _ _ _ => trivial) fun _ _ => trivial
    | installKey now => exact obeys_installKey_timekeeping List.mem_cons_self
    | rotateIfDue now => exact obeys_rotateIfDue_timekeeping List.mem_cons_self
    | _ => exact obeys_idle allows_timekeeping (Request.idle_operation rfl).obeys

end Timekeeping

/-- A key is put in: what the clock shows, and the instant that the key was asked for. -/
structure Handover where
  shown : Timestamp
  asked : Timestamp
  deriving DecidableEq

namespace System

def handovers (s : System) : List Move → List Handover
  | [] => []
  | m :: moves =>
    (m.shown?.bind fun shown => (s.installed? m).map fun a => ⟨shown, a.2.installedAt⟩).toList ++
      (s.move m).handovers moves

theorem exists_handover {a : ActiveKey} : ∀ {moves : List Move} {s : System}, a ∈ s.line moves →
    ∃ shown ∈ moves.filterMap Move.shown?, ⟨shown, a.installedAt⟩ ∈ s.handovers moves
  | m :: moves, s, h => by
    rw [line, installs, List.map_append] at h
    rcases List.mem_append.1 h with h | h
    · obtain ⟨⟨i, a⟩, hm, rfl⟩ := List.mem_map.1 h
      rw [Option.mem_toList] at hm
      obtain ⟨reply, _, _, _, _, rfl, -⟩ := eq_of_installed? hm
      refine ⟨reply.clock, List.mem_cons_self, List.mem_append_left _ ?_⟩
      rw [Option.mem_toList, hm]
      rfl
    · obtain ⟨shown, hshown, hhandover⟩ := exists_handover h
      exact ⟨shown, List.mem_filterMap.2 ((List.mem_filterMap.1 hshown).imp fun _ h =>
        ⟨List.mem_cons_of_mem _ h.1, h.2⟩), List.mem_append_right _ hhandover⟩

variable {w : World}

/-- A key is put in for an instant that the clock has shown. -/
theorem mem_shown_of_installed? {moves : List Move} {m : Move} {i : Nat} {a : ActiveKey}
    (h : ((start w).run moves).installed? m = some (i, a)) :
    a.installedAt ∈ moves.filterMap Move.shown? := by
  obtain ⟨reply, q, past, c, next, rfl, hi, hputs⟩ := eq_of_installed? h
  have hallows := (timekeeper.lawful_of_start w moves _ (List.mem_of_getElem? hi)).2.1
  have hknown : a.installedAt ∈ timekeeper.phase ⟨q, past, .call c next⟩ := by
    cases c with
    | installKey key now | rotateKey key now =>
      unfold Call.puts at hputs
      dsimp only at hputs
      split_ifs at hputs
      cases hputs
      exact hallows
    | _ => cases hputs
  rcases mem_phase_timekeeping hknown with hknown | hread
  · -- The request was given the instant.
    have hstart := start_mem (List.mem_of_getElem? hi)
    refine List.mem_filterMap.2 ⟨_, hstart, ?_⟩
    cases q with
    | installKey now | rotateIfDue now => rw [List.mem_singleton.1 hknown]; rfl
    | _ => cases hknown
  · obtain ⟨before, reply', after, rfl, -, hnow⟩ := exists_moment hi hread
    refine List.mem_filterMap.2 ⟨.step i reply', ?_, congrArg some hnow.symm⟩
    exact List.mem_append_right _ List.mem_cons_self

theorem mem_shown_of_mem_line {moves : List Move} {a : ActiveKey} (h : a ∈ (start w).line moves) :
    a.installedAt ∈ moves.filterMap Move.shown? := by
  induction moves using List.reverseRecOn with
  | nil => cases h
  | append_singleton moves m ih =>
    rw [line, installs_concat, List.map_append] at h
    rw [List.filterMap_append]
    refine List.mem_append_left _ ?_
    rcases List.mem_append.1 h with h | h
    · exact ih h
    · obtain ⟨⟨i, a⟩, hm, rfl⟩ := List.mem_map.1 h
      exact mem_shown_of_installed? (Option.mem_toList.1 hm)

/-- Time passes from an instant of a run to one behind it, and no key that is put in meanwhile was
asked for longer ago than a delay. -/
structure Passes (w : World) (delay : Nat) (before later : List Move) (t v : Timestamp) : Prop where
  steady : Steady (before.filterMap Move.shown? ++ t :: later.filterMap Move.shown? ++ [v])
  prompt : ∀ h ∈ ((start w).run before).handovers later,
    h.shown.nanoseconds ≤ h.asked.nanoseconds + delay

section Passes

variable {delay : Nat} {before later : List Move} {t v : Timestamp}
  (h : Passes w delay before later t v)

include h

theorem Passes.le_of_mem_line {a : ActiveKey} (ha : a ∈ ((start w).run before).line later) :
    t.nanoseconds ≤ a.installedAt.nanoseconds + delay := by
  obtain ⟨shown, hshown, hhandover⟩ := exists_handover ha
  have hprompt : shown.nanoseconds ≤ a.installedAt.nanoseconds + delay := h.prompt _ hhandover
  have hsteady := (List.pairwise_append.1 (List.append_assoc _ _ _ ▸ h.steady)).2.1
  have hle := (List.pairwise_cons.1 hsteady).1 shown (List.mem_append_left _ hshown)
  omega

theorem Passes.le_end {a : ActiveKey} (ha : a ∈ (start w).line (before ++ later)) :
    a.installedAt.nanoseconds ≤ v.nanoseconds := by
  have hshown := mem_shown_of_mem_line ha
  rw [List.filterMap_append] at hshown
  refine (List.pairwise_append.1 h.steady).2.2 _ ?_ v List.mem_cons_self
  rcases List.mem_append.1 hshown with hshown | hshown
  · exact List.mem_append_left _ hshown
  · exact List.mem_append_right _ (List.mem_cons_of_mem _ hshown)

/-- The key that was active is in the ring until the end of a lifetime that the retention exceeds by
the delay. -/
theorem Passes.mem_keys {s : Settings} (hring : w.ring = .ofSettings s) {key : SigningKey}
    {lifetime : UInt64} (hactive : ((start w).run before).world.ring.active = some key)
    (hretention : ∀ age ∈ s.retention,
      lifetime.toNat * 1000000000 + delay ≤ age.toNat * 1000000000)
    (hend : v.seconds < t.seconds + lifetime.toNat) :
    key ∈ ((start w).run (before ++ later)).world.ring.keys := by
  rw [(ring_run hring before).1] at hactive
  obtain ⟨a, hlast, rfl⟩ := Option.map_eq_some_iff.1 hactive
  obtain ⟨init, hinit⟩ := List.getLast?_eq_some_iff.1 hlast
  have hline : (start w).line (before ++ later) =
      init ++ a :: ((start w).run before).line later := by
    rw [line_append, hinit, List.append_assoc, List.singleton_append]
  rw [(ring_run hring (before ++ later)).1, hline]
  refine KeyRing.mem_keys_ofLine fun b hb c hc age hage => ?_
  obtain ⟨seconds, hseconds, rfl⟩ := Option.map_eq_some_iff.1 hage
  have hlong := hretention seconds hseconds
  -- The key was retired no earlier than a delay before the lifetime, and the last key came by now.
  have hfirst := h.le_of_mem_line (List.mem_of_mem_head? hb)
  have hlatest := h.le_end (a := c) (hline ▸
    List.mem_append_right _ (List.mem_cons_of_mem _ (List.mem_of_mem_getLast? hc)))
  unfold Timestamp.seconds at hend
  omega

end Passes

end System

theorem World.sign_of_complete {w : World} {replies : Nat → Reply} {payload : Json} {token : String}
    (h : (complete (Signing.sign payload) w replies).1 = .ok token) :
    ∃ key random, w.ring.active = some key ∧ token = Jws.sign key random payload := by
  rcases hactive : w.ring.active with _ | key
  · have hkey : w.ring.signingKey = .error .noActiveKey := by rw [KeyRing.signingKey, hactive]
    have hensures : (Signing.sign payload).Ensures (fun _ => True) w fun o w' past =>
        w' = w ∧ past = [] ∧ o.kind = (Outcome.ofExcept w.ring.signingKey).kind :=
      ensures_sign payload
    obtain ⟨-, -, hkind⟩ := hensures.complete_any replies
    rw [h, hkey] at hkind
    cases hkind
  · obtain ⟨random, hsign⟩ := complete_sign replies hactive payload
    rw [hsign] at h
    exact ⟨key, random, rfl, (Outcome.ok.inj h).symm⟩

/-- A token that was signed at an instant of a run, no earlier than it was issued, is valid until it
expires, whatever happens to the ring in between, if retired keys are kept for the lifetimes of
tokens and for as long as it takes to put in a key. Signing and verifying look at the ring once, so
that what others do while they go on does not matter. -/
theorem no_token_outlives_its_key {s : Settings} {w : World} (hring : w.ring = .ofSettings s)
    {delay : Nat} (hretention : ∀ age ∈ s.retention,
      s.accessLifetime.toNat * 1000000000 + delay ≤ age.toNat * 1000000000 ∧
        s.idLifetime.toNat * 1000000000 + delay ≤ age.toNat * 1000000000)
    {before later : List Move} {t v : Timestamp}
    (hpasses : System.Passes w delay before later t v) (hv : 0 ≤ v.nanoseconds)
    (hfresh : ((System.start w).run (before ++ later)).madeKids.Nodup)
    {claims : Claims} (hissue : claims.iat.toInt ≤ t.seconds)
    {replies replies' : Nat → Reply} (hclock : ∀ n, (replies' n).clock = v) :
    (∀ token,
      (World.complete (Signing.signAccess claims (.ofSeconds s.accessLifetime))
        ((System.start w).run before).world replies).1 = .ok token →
      v.seconds < (claims.expiringAfter s.accessLifetime).exp.toInt →
      (World.complete (Signing.verify .access token)
        ((System.start w).run (before ++ later)).world replies').1 =
          .ok (claims.expiringAfter s.accessLifetime)) ∧
    ∀ accessToken token,
      (World.complete (Signing.signId claims (.ofSeconds s.idLifetime) accessToken)
        ((System.start w).run before).world replies).1 = .ok token →
      v.seconds < (claims.expiringAfter s.idLifetime).exp.toInt →
      (World.complete (Signing.verify .idToken token)
        ((System.start w).run (before ++ later)).world replies').1 =
          .ok ⟨claims.expiringAfter s.idLifetime, accessToken.map atHash⟩ := by
  have hkids : (((System.start w).run (before ++ later)).world.ring.keys.map (·.kid)).Nodup := by
    rw [(System.ring_run hring (before ++ later)).1]
    exact KeyRing.nodup_keys (System.nodup_line hfresh)
  have hnow : 0 ≤ v.instant.seconds := Int.ediv_nonneg hv (by decide)
  have hend : ∀ lifetime : UInt64, (claims.expiringAfter lifetime).exp.toInt ≤
      t.seconds + (lifetime.toNat : Int) := by
    intro lifetime
    -- A token that would end after the last second there is ends at that one.
    rw [claims.toInt_exp_expiringAfter]
    omega
  constructor
  · intro token hsign hexp
    obtain ⟨key, random, hactive, rfl⟩ := World.sign_of_complete hsign
    have hkey := hpasses.mem_keys hring hactive (fun age h => (hretention age h).1)
      (Int.lt_of_lt_of_le hexp (hend _))
    obtain ⟨hvalid, -⟩ := complete_verify_sign replies' hkey hkids hclock hnow
      (Jws.claims?_access key random (claims.expiringAfter s.accessLifetime))
    exact congrArg Prod.fst (hvalid hexp)
  · intro accessToken token hsign hexp
    obtain ⟨key, random, hactive, rfl⟩ := World.sign_of_complete hsign
    have hkey := hpasses.mem_keys hring hactive (fun age h => (hretention age h).2)
      (Int.lt_of_lt_of_le hexp (hend _))
    obtain ⟨hvalid, -⟩ := complete_verify_sign replies' hkey hkids hclock hnow
      (Jws.claims?_idToken key random
        ⟨claims.expiringAfter s.idLifetime, accessToken.map atHash⟩)
    exact congrArg Prod.fst (hvalid hexp)

namespace Sample

/-- Keys are replaced after ten minutes, which is how long tokens live. They are retained for that
long, or for an ample second more. -/
def settings (ample : Bool) : Settings :=
  { Settings.standard with
    algorithm := .es256, rotationPeriod := 600, retention := some (if ample then 601 else 600) }

def unused (ample : Bool) : World := { world with ring := .ofSettings (settings ample) }

def replyAt (ms : Int) (byte : UInt8) : Reply := { reply byte with clock := .ofMillis ms }

def stepsAt (ms : Int) (i : Nat) (byte : UInt8) (n : Nat) : List Move :=
  List.replicate n (.step i (replyAt ms byte))

/-- A key is installed. When its time is over, a request makes another. -/
def succession : List Move :=
  .start (.installKey (.ofMillis 0)) :: stepsAt 0 0 1 3 ++
    .start (.rotateIfDue (.ofMillis 600900)) :: stepsAt 600900 1 2 2

/-- The request puts it in, a fifth of a second after it was asked to. That key is replaced as soon
as it may be. -/
def successions : List Move :=
  stepsAt 601100 1 2 2 ++ .start (.rotateIfDue (.ofMillis 1200900)) :: stepsAt 1200900 2 3 4

/-- The identifier of the key that signs until then. -/
def firstKid : String := Encoding.uuid (Vector.replicate 16 1)

theorem exists_active_succession (ample : Bool) : ∃ key,
    ((System.start (unused ample)).run succession).world.ring.active = some key ∧
      key.kid = firstKid := by
  have hkid : ((System.start (unused ample)).run succession).world.ring.active.map (·.kid) =
      some firstKid := by cases ample <;> decide +kernel
  exact Option.map_eq_some_iff.1 hkid

theorem passes_successions (ample : Bool) : System.Passes (unused ample) 200000000 succession
    successions (.ofMillis 601000) (.ofMillis 1200950) where
  steady := by decide
  prompt := by
    have hhandovers : ((System.start (unused ample)).run succession).handovers successions =
        [⟨.ofMillis 601100, .ofMillis 600900⟩, ⟨.ofMillis 1200900, .ofMillis 1200900⟩] := by
      cases ample <;> decide +kernel
    rw [hhandovers]
    decide

end Sample

/-- A token is signed while its key is being replaced. It is valid until it expires if the retention
is a second longer than its lifetime. -/
theorem no_token_outlives_its_key_replaced : ∃ token,
    (World.complete (Signing.signAccess (Sample.claims 601) (.ofSeconds 600))
      ((System.start (Sample.unused true)).run Sample.succession).world
        fun _ => Sample.replyAt 601000 4).1 = .ok token ∧
    ((System.start (Sample.unused true)).run (Sample.succession ++
      Sample.successions)).world.ring.retired.map (·.retiredAt) =
        [.ofMillis 600900, .ofMillis 1200900] ∧
    (World.complete (Signing.verify .access token)
      ((System.start (Sample.unused true)).run (Sample.succession ++ Sample.successions)).world
        fun _ => Sample.replyAt 1200950 4).1 = .ok ((Sample.claims 601).expiringAfter 600) := by
  obtain ⟨key, hactive, -⟩ := Sample.exists_active_succession true
  obtain ⟨random, hsign⟩ := World.complete_sign (fun _ => Sample.replyAt 601000 4) hactive
    ((Sample.claims 601).expiringAfter 600).toJson
  have hsigned := congrArg Prod.fst hsign
  have hretention : ∀ age ∈ (Sample.settings true).retention,
      (Sample.settings true).accessLifetime.toNat * 1000000000 + 200000000 ≤
          age.toNat * 1000000000 ∧
        (Sample.settings true).idLifetime.toNat * 1000000000 + 200000000 ≤
          age.toNat * 1000000000 := by
    intro age hage
    cases hage
    decide
  have hfresh : ((System.start (Sample.unused true)).run
      (Sample.succession ++ Sample.successions)).madeKids.Nodup := by decide +kernel
  have hissue : (Sample.claims 601).iat.toInt ≤ (Timestamp.ofMillis 601000).seconds := by decide
  refine ⟨_, hsigned, by decide +kernel, ?_⟩
  exact (no_token_outlives_its_key rfl hretention (Sample.passes_successions true) (by decide)
    hfresh hissue fun _ => rfl).1 _ hsigned (by decide +kernel)

/-- With a retention that is just as long, the key of that token is unknown before it expires. -/
theorem key_dropped_before_token_expires :
    (∀ age ∈ (Sample.settings false).retention, (Sample.settings false).accessLifetime ≤ age ∧
      (Sample.settings false).idLifetime ≤ age) ∧
    System.Passes (Sample.unused false) 200000000 Sample.succession Sample.successions
      (.ofMillis 601000) (.ofMillis 1200950) ∧
    (Sample.claims 601).iat.toInt = (Timestamp.ofMillis 601000).seconds ∧
    (Timestamp.ofMillis 1200950).seconds < ((Sample.claims 601).expiringAfter 600).exp.toInt ∧
    ∃ token,
      (World.complete (Signing.signAccess (Sample.claims 601) (.ofSeconds 600))
        ((System.start (Sample.unused false)).run Sample.succession).world
          fun _ => Sample.replyAt 601000 4).1 = .ok token ∧
      (World.complete (Signing.verify .access token)
        ((System.start (Sample.unused false)).run (Sample.succession ++ Sample.successions)).world
          fun _ => Sample.replyAt 1200950 4).1 =
        .error (.invalidToken ("unknown kid " ++ Sample.firstKid)) := by
  refine ⟨?_, Sample.passes_successions false, by decide, by decide +kernel, ?_⟩
  · intro age hage
    cases hage
    decide
  obtain ⟨key, hactive, hkid⟩ := Sample.exists_active_succession false
  obtain ⟨random, hsign⟩ := World.complete_sign (fun _ => Sample.replyAt 601000 4) hactive
    ((Sample.claims 601).expiringAfter 600).toJson
  have hdropped : ((System.start (Sample.unused false)).run (Sample.succession ++
      Sample.successions)).world.ring.find? key.kid = none := by
    rw [hkid]
    exact Option.isNone_iff_eq_none.1 (by decide +kernel)
  refine ⟨_, congrArg Prod.fst hsign, ?_⟩
  rw [World.complete_verify, Jws.inspect_sign_of_find?_eq_none hdropped, hkid]
  rfl

end TokenAuthority

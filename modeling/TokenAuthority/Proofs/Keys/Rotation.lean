import TokenAuthority.Proofs.Keys.Custody
import TokenAuthority.Proofs.Keys.Succession
import TokenAuthority.Proofs.Moments

/-!
# Rotation under race

Requests that install or replace the signing key look at the ring, make a key and look again, and
others run in between. Whatever the order of their calls and the instants that they are given, each
puts in one key at most and that its own (`System.Installs`, `System.installs_run`), so that the
ring is that of the line of these keys.
-/

namespace TokenAuthority

open Time (Timestamp)

def Thread.call? (t : Thread) : Option Call :=
  match t.rest with
  | .call c _ => some c
  | .done _ => none

namespace System

/-- The key that a move puts into the ring, and the request that does. -/
def installed? (s : System) : Move → Option (Nat × ActiveKey)
  | .step i _ => do
    let t ← s.threads[i]?
    let c ← t.call?
    let a ← c.puts s.world.ring
    return (i, a)
  | _ => none

/-- The keys that a run puts into the ring. -/
def installs (s : System) : List Move → List (Nat × ActiveKey)
  | [] => []
  | m :: moves => (s.installed? m).toList ++ (s.move m).installs moves

def line (s : System) (moves : List Move) : List ActiveKey := (s.installs moves).map (·.2)

/-- The identifiers of the keys that requests have made. -/
def madeKids (s : System) : List String :=
  s.threads.flatMap fun t => (t.past.filterMap Event.made?).map (·.kid)

theorem installs_append (later : List Move) : ∀ (moves : List Move) (s : System),
    s.installs (moves ++ later) = s.installs moves ++ (s.run moves).installs later
  | [], _ => rfl
  | m :: moves, s => by
    rw [List.cons_append, installs, installs_append later moves, installs, List.append_assoc]
    rfl

theorem installs_concat (s : System) (moves : List Move) (m : Move) :
    s.installs (moves ++ [m]) = s.installs moves ++ ((s.run moves).installed? m).toList := by
  rw [installs_append, installs, installs, List.append_nil]

theorem line_append (s : System) (moves later : List Move) :
    s.line (moves ++ later) = s.line moves ++ (s.run moves).line later := by
  rw [line, installs_append, List.map_append, line, line]

theorem eq_of_installed? {s : System} {m : Move} {i : Nat} {a : ActiveKey}
    (h : s.installed? m = some (i, a)) : ∃ reply q past c next, m = .step i reply ∧
      s.threads[i]? = some ⟨q, past, .call c next⟩ ∧ c.puts s.world.ring = some a := by
  unfold installed? at h
  split at h
  · simp only [Option.bind_eq_bind, Option.bind_eq_some_iff, Option.pure_def,
      Option.some.injEq, Prod.mk.injEq] at h
    obtain ⟨⟨q, past, o | ⟨c, next⟩⟩, ht, c', hc, a', ha, rfl, rfl⟩ := h
    · cases hc
    · cases hc
      exact ⟨_, q, past, _, next, rfl, ht, ha⟩
  · cases h

/-- A key that is put in has been made before, and none has been put in. -/
theorem held_of_puts {q : Request} {past : List Event} {c : Call}
    {next : c.Answer → Operation q.Result} {ring : KeyRing} {a : ActiveKey}
    (h : keyCustody.Lawful ⟨q, past, .call c next⟩) (hputs : c.puts ring = some a) :
    past.filterMap Event.made? = [a.key] ∧ past.filterMap Event.put? = [] ∧
      ∀ answer, Event.put? ⟨c, answer⟩ ≠ none := by
  have hallows : custody.allows (custody.phase [] past) c := h.2.1
  rw [phase_custody, List.nil_append] at hallows
  cases c with
  | installKey key now | rotateKey key now =>
    unfold Call.puts at hputs
    dsimp only at hputs
    split_ifs at hputs
    cases hputs
    exact ⟨hallows.1, hallows.2, fun _ => nofun⟩
  | _ => cases hputs

/-- The keys of a run were each made by the request that put it in, and each request has put in one
at most. -/
structure Installs (s : System) (line : List (Nat × ActiveKey)) : Prop where
  once : (line.map (·.1)).Nodup
  own : ∀ i a, (i, a) ∈ line → ∃ t, s.threads[i]? = some t ∧
    (∃ e ∈ t.past, e.made? = some a.key) ∧ ∃ e ∈ t.past, e.put? ≠ none

section Run

variable {algorithm : Algorithm} {period : Nat} {retention : Option Nat}

theorem ring_move {s : System} {line : List ActiveKey}
    (hring : s.world.ring = .ofLine algorithm period retention line)
    (hspaced : KeyRing.Spaced period line) (m : Move) :
    (s.move m).world.ring = .ofLine algorithm period retention
        (line ++ (s.installed? m).toList.map (·.2)) ∧
      KeyRing.Spaced period (line ++ (s.installed? m).toList.map (·.2)) := by
  have hsame : s.world.ring = .ofLine algorithm period retention (line ++ []) ∧
      KeyRing.Spaced period (line ++ []) := by
    rw [List.append_nil]
    exact ⟨hring, hspaced⟩
  cases m with
  | step i reply =>
    unfold move installed?
    dsimp only
    rcases s.threads[i]? with _ | ⟨q, past, o | ⟨c, next⟩⟩
    · exact hsame
    · exact hsame
    · have hperform := World.ring_perform hring hspaced reply c
      have hputs : ((c.puts s.world.ring).bind fun a => some (i, a)).toList.map (·.2) =
          (c.puts s.world.ring).toList := by
        rcases c.puts s.world.ring with _ | a <;> rfl
      rw [← hputs] at hperform
      exact hperform
  | _ => exact hsame

theorem ring_run {w : World} (hw : w.ring = .empty algorithm period retention)
    (moves : List Move) :
    ((start w).run moves).world.ring =
        .ofLine algorithm period retention ((start w).line moves) ∧
      KeyRing.Spaced period ((start w).line moves) := by
  induction moves using List.reverseRecOn with
  | nil => exact ⟨hw, .nil⟩
  | append_singleton moves m ih =>
    rw [line, installs_concat, List.map_append, run_concat]
    exact ring_move ih.1 ih.2 m

theorem installs_run (w : World) (moves : List Move) :
    ((start w).run moves).Installs ((start w).installs moves) := by
  induction moves using List.reverseRecOn with
  | nil => exact ⟨.nil, nofun⟩
  | append_singleton moves m ih =>
    rw [installs_concat, run_concat]
    have hown : ∀ i a, (i, a) ∈ (start w).installs moves → ∃ t,
        (((start w).run moves).move m).threads[i]? = some t ∧
          (∃ e ∈ t.past, e.made? = some a.key) ∧ ∃ e ∈ t.past, e.put? ≠ none := by
      intro i a hia
      obtain ⟨t, ht, ⟨e, he, hmade⟩, e', he', hput⟩ := ih.own i a hia
      obtain ⟨u, hu, -, hpast⟩ := exists_getElem?_move ht m
      exact ⟨u, hu, ⟨e, hpast he, hmade⟩, e', hpast he', hput⟩
    rcases hm : ((start w).run moves).installed? m with _ | ⟨i, a⟩
    · rw [Option.toList_none, List.append_nil]
      exact ⟨ih.once, hown⟩
    obtain ⟨reply, q, past, c, next, rfl, hi, hputs⟩ := eq_of_installed? hm
    obtain ⟨hmade, hput, hputs⟩ :=
      held_of_puts (keyCustody.lawful_of_start w moves _ (List.mem_of_getElem? hi)) hputs
    -- The request has put in no key before this move, so that none of the line is from it.
    refine ⟨?_, fun j b hjb => ?_⟩
    · rw [List.map_append, Option.toList_some, List.map_singleton, List.nodup_append]
      refine ⟨ih.once, List.nodup_singleton _, ?_⟩
      rintro j hj k hk rfl
      obtain rfl := List.mem_singleton.1 hk
      obtain ⟨⟨_, b⟩, hb, rfl⟩ := List.mem_map.1 hj
      obtain ⟨t, ht, -, e, he, hputs'⟩ := ih.own _ b hb
      obtain rfl := Option.some.inj (hi.symm.trans ht)
      exact hputs' (List.filterMap_eq_nil_iff.1 hput e he)
    · rcases List.mem_append.1 hjb with hjb | hjb
      · exact hown j b hjb
      · cases List.mem_singleton.1 hjb
        obtain ⟨u, hu, -, hpast⟩ := exists_getElem?_move hi (.step i reply)
        obtain ⟨e, he, hkey⟩ := List.mem_filterMap.1 (hmade ▸ List.mem_singleton_self a.key)
        have hcall := mem_past_of_moment hi (show (((start w).run moves).run
          (.step i reply :: [])).threads[i]? = some u from hu)
        exact ⟨u, hu, ⟨e, hpast he, hkey⟩, _, hcall, hputs _⟩

theorem kid_ne_of_made {s : System} (hfresh : s.madeKids.Nodup) {i j : Nat} (hij : i ≠ j)
    {t u : Thread} (hi : s.threads[i]? = some t) (hj : s.threads[j]? = some u)
    {key key' : SigningKey} (hmade : ∃ e ∈ t.past, e.made? = some key)
    (hmade' : ∃ e ∈ u.past, e.made? = some key') : key.kid ≠ key'.kid := by
  have hdisjoint := (List.pairwise_iff_getElem.1 (List.nodup_flatMap.1 hfresh).2)
  obtain ⟨hlt, rfl⟩ := List.getElem?_eq_some_iff.1 hi
  obtain ⟨hlt', rfl⟩ := List.getElem?_eq_some_iff.1 hj
  have hkid := List.mem_map_of_mem (f := SigningKey.kid) (List.mem_filterMap.2 hmade)
  have hkid' := List.mem_map_of_mem (f := SigningKey.kid) (List.mem_filterMap.2 hmade')
  intro he
  rcases Nat.lt_or_gt_of_ne hij with hij | hij
  · exact hdisjoint i j hlt hlt' hij hkid (he ▸ hkid')
  · exact hdisjoint j i hlt' hlt hij hkid' (he ▸ hkid)

theorem nodup_line {w : World} {moves : List Move}
    (hfresh : ((start w).run moves).madeKids.Nodup) :
    (((start w).line moves).map (·.key.kid)).Nodup := by
  have hinstalls := installs_run w moves
  rw [line, List.map_map]
  refine List.pairwise_map.2 ((List.pairwise_map.1 hinstalls.once).imp_of_mem ?_)
  rintro ⟨i, a⟩ ⟨j, b⟩ ha hb hij
  obtain ⟨t, ht, hmade, -⟩ := hinstalls.own i a ha
  obtain ⟨u, hu, hmade', -⟩ := hinstalls.own j b hb
  exact kid_ne_of_made hfresh hij ht hu hmade hmade'

end Run

/-- None of the calls of a request changes the world. -/
def StandsStill (w : World) (moves : List Move) (i : Nat) : Prop :=
  ∀ before reply after, moves = before ++ .step i reply :: after →
    (((start w).run before).move (.step i reply)).world = ((start w).run before).world

theorem perform_still {w : World} {reply : Reply} {c : Call}
    (h : Event.Still ⟨c, (w.perform reply c).1⟩) : (w.perform reply c).2 = w := by
  cases c with
  | ring => rfl
  | generateKey algorithm now =>
    unfold World.perform
    rcases reply.keyFailure with _ | e <;> rfl
  | rotateKey key now =>
    have hring : (w.ring.rotate key now).2 = w.ring := by
      have hrotated : (w.ring.rotate key now).1 = false := h
      unfold KeyRing.rotate at hrotated ⊢
      split_ifs at hrotated ⊢
      rfl
    show { w with ring := (w.ring.rotate key now).2 } = w
    rw [hring]
  | _ => exact h.elim

theorem standsStill_of_still {w : World} {moves : List Move} {i : Nat} {t : Thread}
    (hi : ((start w).run moves).threads[i]? = some t) (h : ∀ e ∈ t.past, e.Still) :
    StandsStill w moves i := by
  rintro before reply after rfl
  rw [run_append] at hi
  rcases hu : ((start w).run before).threads[i]? with _ | ⟨q, past, o | ⟨c, next⟩⟩
  · simp only [move, hu]
  · simp only [move, hu, Thread.step]
  · have hstill := perform_still (h _ (mem_past_of_moment hu hi))
    simpa only [move, hu, Thread.step] using hstill

theorem custodial_of_done {w : World} {moves : List Move} {i : Nat} {q : Request}
    {past : List Event} {o : Outcome q.Result}
    (hi : ((start w).run moves).threads[i]? = some ⟨q, past, .done o⟩) : q.Custodial past o := by
  have hfits := (keyCustody.lawful_of_start w moves _ (List.mem_of_getElem? hi)).fits rfl
  have hphase : keyCustody.phase ⟨q, past, .done o⟩ = past := phase_custody [] past
  rwa [hphase] at hfits

/-- A request that tells that it has replaced the key has done so at its instant. -/
theorem exists_install {w : World} {moves : List Move} {i : Nat} {now : Timestamp}
    {past : List Event}
    (hi : ((start w).run moves).threads[i]? = some ⟨.rotateIfDue now, past, .done (.ok true)⟩) :
    ∃ key, (i, ⟨key, now⟩) ∈ (start w).installs moves := by
  obtain ⟨key, he⟩ := (custodial_of_done hi).done rfl
  obtain ⟨before, reply, after, rfl, ⟨t, ht, -, next, hnext⟩, hanswer⟩ := exists_moment hi he
  have hputs : (Call.rotateKey key now).puts ((start w).run before).world.ring =
      some ⟨key, now⟩ := by
    have hrotated : true = (((start w).run before).world.ring.rotate key now).1 := hanswer
    unfold KeyRing.rotate at hrotated
    unfold Call.puts
    split_ifs at hrotated with hdue
    exact if_pos hdue
  refine ⟨key, ?_⟩
  rw [installs_append]
  refine List.mem_append_right _ (List.mem_append_left _ ?_)
  simp [installed?, ht, Thread.call?, hnext, hputs]

end System

/-- What a run makes of the key ring of a world. -/
structure KeysInTurn (w : World) (moves : List Move) : Prop where
  /-- The last key that was put in is the active one, since the instant that it came for. -/
  active : ((System.start w).run moves).world.ring.active =
    ((System.start w).line moves).getLast?.map (·.key)
  since : ((System.start w).run moves).world.ring.lastRotation =
    ((System.start w).line moves).getLast?.map (·.installedAt)
  lasting : ∀ before after, moves = before ++ after →
    ((System.start w).run before).world.ring.active.isSome →
    ((System.start w).run moves).world.ring.active.isSome
  spaced : ((System.start w).line moves).Pairwise (ActiveKey.Precedes w.ring.period)
  once : (((System.start w).line moves).map (·.key.kid)).Nodup
  /-- Each key but the last has been retired when the next one came, and dropped if it was too old
  when the last one came. -/
  retired : ((System.start w).run moves).world.ring.retired =
    (KeyRing.retirements ((System.start w).line moves)).filter fun k =>
      ((System.start w).line moves).getLast?.all fun a => w.ring.keeps a.installedAt k
  ordered : ((System.start w).run moves).world.ring.retired.Pairwise fun k k' =>
    k.retiredAt.nanoseconds ≤ k'.retiredAt.nanoseconds
  distinct : (((System.start w).run moves).world.ring.keys.map (·.kid)).Nodup
  kept : w.ring.retention = none → ∀ a ∈ (System.start w).line moves,
    a.key ∈ ((System.start w).run moves).world.ring.keys
  /-- Two requests that have replaced the key were for instants a period apart. -/
  apart : ∀ (i j : Nat) (now now' : Timestamp) (past past' : List Event), i ≠ j →
    ((System.start w).run moves).threads[i]? = some ⟨.rotateIfDue now, past, .done (.ok true)⟩ →
    ((System.start w).run moves).threads[j]? = some ⟨.rotateIfDue now', past', .done (.ok true)⟩ →
    now.nanoseconds + w.ring.period ≤ now'.nanoseconds ∨
      now'.nanoseconds + w.ring.period ≤ now.nanoseconds
  /-- A request that has not replaced the key has changed nothing. -/
  still : ∀ (i : Nat) (now : Timestamp) (past : List Event) (o : Outcome Bool),
    ((System.start w).run moves).threads[i]? = some ⟨.rotateIfDue now, past, .done o⟩ →
    o ≠ .ok true → System.StandsStill w moves i
  failed : ∀ (i : Nat) (now : Timestamp) (past : List Event) (e : TokenError),
    ((System.start w).run moves).threads[i]? = some ⟨.installKey now, past, .done (.error e)⟩ →
    System.StandsStill w moves i

/-- Whatever requests run, in whatever order and for whatever instants, keys come in turn. -/
theorem keys_in_turn {w : World} {algorithm : Algorithm} {period : Nat} {retention : Option Nat}
    (hw : w.ring = .empty algorithm period retention) {moves : List Move}
    (hfresh : ((System.start w).run moves).madeKids.Nodup) : KeysInTurn w moves := by
  obtain ⟨hring, hspaced⟩ := System.ring_run hw moves
  have hperiod : w.ring.period = period := by rw [hw]; rfl
  have hline := System.nodup_line hfresh
  refine ⟨by rw [hring]; rfl, by rw [hring]; rfl, ?_, by rw [hperiod]; exact hspaced.pairwise,
    hline, by rw [hring, hw]; rfl, ?_, ?_, ?_, ?_, ?_, ?_⟩
  · rintro before after rfl hbefore
    obtain ⟨hring', -⟩ := System.ring_run hw before
    rw [hring'] at hbefore
    rw [hring, System.line_append]
    unfold KeyRing.ofLine at hbefore ⊢
    rw [Option.isSome_map, Option.isSome_iff_ne_none] at hbefore ⊢
    exact mt (fun h => List.getLast?_eq_none_iff.2
      (List.append_eq_nil_iff.1 (List.getLast?_eq_none_iff.1 h)).1) hbefore
  · rw [hring]
    exact KeyRing.pairwise_retired hspaced
  · rw [hring]
    exact KeyRing.nodup_keys hline
  · intro hnone a ha
    obtain rfl : retention = none := by rwa [hw] at hnone
    rw [hring]
    exact KeyRing.mem_keys_of_retention_none ha
  · intro i j now now' past past' hij hi hj
    obtain ⟨key, ha⟩ := System.exists_install hi
    obtain ⟨key', hb⟩ := System.exists_install hj
    have hsymm : Std.Symm fun p q : Nat × ActiveKey =>
        p.2.Precedes period q.2 ∨ q.2.Precedes period p.2 := ⟨fun _ _ => Or.symm⟩
    have hline : ((System.start w).installs moves).Pairwise fun p q =>
        p.2.Precedes period q.2 ∨ q.2.Precedes period p.2 :=
      (List.pairwise_map.1 hspaced.pairwise).imp .inl
    rw [hperiod]
    exact hline.forall ha hb (by simp [hij])
  · intro i now past o hi ho
    exact System.standsStill_of_still hi fun e he =>
      ((System.custodial_of_done hi).still ho e he).resolve_left List.not_mem_nil
  · intro i now past e hi
    exact System.standsStill_of_still hi (System.custodial_of_done hi e rfl)

namespace Sample

def keyless : World := { world with ring := .empty .es256 900 none }

/-- Two requests install a key at the same time, and later two replace it. -/
def rotations : List Move :=
  [.start (.installKey ⟨0⟩), .start (.installKey ⟨0⟩)] ++ steps 0 1 2 ++ steps 1 2 3 ++
    steps 0 1 1 ++
    [.start (.rotateIfDue (.ofMillis 1000)), .start (.rotateIfDue (.ofMillis 1000))] ++
    steps 2 3 2 ++ steps 3 4 4 ++ steps 2 3 1

end Sample

theorem keys_in_turn_race :
    ((System.start Sample.keyless).run Sample.rotations).madeKids.Nodup ∧
    (∃ past past', ((System.start Sample.keyless).run Sample.rotations).threads[2]? =
        some ⟨.rotateIfDue (.ofMillis 1000), past, .done (.ok false)⟩ ∧
      ((System.start Sample.keyless).run Sample.rotations).threads[3]? =
        some ⟨.rotateIfDue (.ofMillis 1000), past', .done (.ok true)⟩) ∧
    ((System.start Sample.keyless).line Sample.rotations).map (·.installedAt) =
      [⟨0⟩, .ofMillis 1000] ∧
    KeysInTurn Sample.keyless Sample.rotations := by
  have hfresh : ((System.start Sample.keyless).run Sample.rotations).madeKids.Nodup := by
    decide +kernel
  exact ⟨hfresh, ⟨_, _, rfl, rfl⟩, by decide +kernel, keys_in_turn rfl hfresh⟩

end TokenAuthority

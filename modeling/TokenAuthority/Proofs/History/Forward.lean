import Mathlib.Data.List.Nodup
import TokenAuthority.Proofs.Chain.Head
import TokenAuthority.Proofs.Chain.Lineage
import TokenAuthority.Proofs.Provenance

/-!
# History moves forward

No move of any request takes a code or a record out of the store, changes anything of it but its
marks, or takes a mark back. It marks no code but the one that its request presents, and no record
but the one that its request presents or asks to revoke and those that descend from it
(`System.Forward`). This is so even when an exchange takes back the record that it has stored or
burns a chain to which others are adding, and whichever calls the store fails in
(`history_moves_forward`).

A record that is revoked cannot be marked as exchanged, so that a revocation comes before all
exchanges that have not got as far (`System.Withdraws`).
-/

namespace TokenAuthority

open Operation StoreEvent
open Relation (ReflTransGen)

/-- The records that a request was to store. -/
def Thread.minted (t : Thread) : List TokenRecord := t.calls.filterMap StoreEvent.record?

namespace System

def minted (s : System) : List TokenRecord := s.threads.flatMap Thread.minted

/-- A move is the next call of a request. -/
def Moves (s : System) (m : Move) (i : Nat) (q : Request) : Prop :=
  (∃ reply, m = .step i reply) ∧ ∃ c, s.Makes i q c

/-- What a move does to the codes and records of the store. -/
structure Forward (s : System) (m : Move) : Prop where
  /-- A code stays, or the request that presents it marks it as used. -/
  code : ∀ v c, s.world.store.code? v = some c → (s.move m).world.store.code? v = some c ∨
    (s.move m).world.store.code? v = some { c with used := true } ∧
      ∃ i q, s.Moves m i q ∧ q.code? = some v
  newCode : ∀ v c, s.world.store.code? v = none → (s.move m).world.store.code? v = some c →
    ∃ i r p now, s.Moves m i (.issueCode r p now)
  /-- A record stays, or is marked by a request for it or for what it descends from. -/
  record : ∀ x r, s.world.store.record? x = some r → ∃ r', r.Grows r' ∧
    (s.move m).world.store.record? x = some r' ∧
    (r' = r ∨ ∃ i q y, s.Moves m i q ∧ (q.refreshId? = some y ∨ q.revokes? = some y) ∧
      s.world.store.Descends x y)
  newRecord : ∀ x r, s.world.store.record? x = none → (s.move m).world.store.record? x = some r →
    ∃ i t, s.Moves m i t.request ∧ (s.move m).threads[i]? = some t ∧ r ∈ t.minted

end System

/-- A request stores one record at most: a child of the one that it presents, or one without a
parent if it presents a code or asks for tokens outright. -/
structure Thread.Single (t : Thread) : Prop where
  one : t.minted.length ≤ 1
  parent : ∀ r ∈ t.minted, r.parent = t.request.refreshId?
  asked : t.minted ≠ [] → (∃ r p now, t.request = .issue r p now) ∨ t.request.code?.isSome ∨
    t.request.refreshId?.isSome

/-- The records whose marks a call may set. -/
def StoreCall.Marks (s : Store) : StoreCall → TokenRecord → Prop
  | markRotated x, r | revokeByRefreshId x, r => r.refreshId = x
  | revokeRecord id, r => r.id = id
  | revokeChain x, r => s.Descends r.refreshId x
  | _, _ => False

namespace Store

variable {s : Store} {x : String} {r : TokenRecord}

theorem record?_revokeFirst {p : TokenRecord → Bool} (hr : s.record? x = some r)
    (hp : p r = false) : (s.revokeFirst p).2.record? x = some r := by
  have hupdate : ∀ l : List TokenRecord, l.find? (·.refreshId == x) = some r →
      (updateFirst p setRevoked l).find? (·.refreshId == x) = some r := by
    intro l
    induction l with
    | nil => exact id
    | cons a l ih =>
      intro hl
      unfold updateFirst
      by_cases ha : a.refreshId = x
      · obtain rfl : a = r := by simpa [ha] using hl
        rw [if_neg (Bool.eq_false_iff.1 hp)]
        simp [ha]
      · have hl : l.find? (·.refreshId == x) = some r := by simpa [ha] using hl
        split_ifs
        · simpa [setRevoked, ha] using hl
        · simpa [ha] using ih hl
  unfold revokeFirst
  split
  · exact hr
  · split_ifs
    · exact hr
    · exact hupdate s.records hr

/-- A call leaves the records whose marks it may not set. -/
theorem Keyed.record?_perform (h : s.Keyed) {c : StoreCall} (hr : s.record? x = some r)
    (hc : ¬ c.Marks s r) : (s.perform c).2.record? x = some r := by
  obtain rfl := record?_refreshId hr
  cases c with
  | createRecord new =>
    show (s.createRecord new).2.record? r.refreshId = some r
    by_cases hnew : s.Known new.refreshId
    · rwa [createRecord_of_known hnew]
    · rw [createRecord_of_not_known hnew, record?_add hnew, if_neg, hr]
      exact fun he => hnew (he ▸ ⟨r, hr⟩)
  | markRotated y =>
    show (s.markRotated y).2.record? r.refreshId = some r
    by_cases hl : s.Live y
    · rw [markRotated_of_live hl, record?_change (f := setRotated) fun _ => rfl, hr,
        Option.map_some, if_neg (show r.refreshId ≠ y from hc)]
    · rwa [markRotated_of_not_live hl]
  | revokeRecord id => exact record?_revokeFirst hr (beq_false_of_ne hc)
  | revokeByRefreshId y => exact record?_revokeFirst hr (beq_false_of_ne hc)
  | revokeChain y =>
    show (s.revokeChain y).2.record? r.refreshId = some r
    rw [record?_revokeChain, hr, Option.map_some, if_neg fun hy => hc (h.mem_chain.1 hy)]
  | createCode c =>
    show (s.createCode c).2.record? r.refreshId = some r
    unfold createCode
    split
    · exact hr
    · exact hr
  | markCodeUsed v =>
    show (s.markCodeUsed v).2.record? r.refreshId = some r
    rw [markCodeUsed_eq]
    split
    · exact hr
    · split_ifs
      · exact hr
      · exact hr
  | _ => exact hr

end Store

section Makes

variable {w : World} {moves : List Move} {i : Nat} {q : Request} {x : String}

theorem Chain.refreshId?_of_makes {c : StoreCall}
    (h : ((System.start w).run moves).Makes i q (.store c))
    (hc : ∀ φ, Chain.Allows φ c → φ.key? = some x) : q.refreshId? = some x := by
  obtain ⟨t, -, rfl, hlaw, hallows⟩ := Chain.regime.allows_of_makes h
  rw [← Chain.key?_phase hlaw]
  exact hc _ hallows

theorem Chain.refreshId?_of_markRotated
    (h : ((System.start w).run moves).Makes i q (.store (.markRotated x))) :
    q.refreshId? = some x := by
  refine refreshId?_of_makes h ?_
  rintro _ ⟨c, rfl⟩
  rfl

theorem Chain.refreshId?_of_revokeChain
    (h : ((System.start w).run moves).Makes i q (.store (.revokeChain x))) :
    q.refreshId? = some x := by
  refine refreshId?_of_makes h ?_
  rintro _ (rfl | ⟨c, rfl⟩)
  · rfl
  · rfl

theorem Chain.revokes?_of_makes
    (h : ((System.start w).run moves).Makes i q (.store (.revokeByRefreshId x))) :
    q.revokes? = some x := by
  obtain ⟨t, -, rfl, hlaw, hallows⟩ := Chain.regime.allows_of_makes h
  exact Chain.revokes?_of_revoking hlaw hallows

theorem Chain.parent_of_makes {r : TokenRecord}
    (h : ((System.start w).run moves).Makes i q (.store (.createRecord r))) :
    r.parent = q.refreshId? := by
  obtain ⟨t, -, rfl, hlaw, -, hallows⟩ := Chain.regime.allows_of_makes h
  rw [← Chain.key?_phase hlaw]
  rcases hallows with ⟨hφ, hparent⟩ | ⟨x, hφ, hparent⟩
  · rw [hφ, hparent]
    rfl
  · rw [hφ, hparent]
    rfl

theorem Spending.code?_of_makes {v : String}
    (h : ((System.start w).run moves).Makes i q (.store (.markCodeUsed v))) :
    q.code? = some v := by
  obtain ⟨t, -, rfl, hlaw, c, hφ, rfl⟩ := Spending.regime.allows_of_makes h
  rw [← Spending.key?_phase hlaw, hφ]
  rfl

theorem History.issueCode_of_makes {c : AuthorizationCode}
    (h : ((System.start w).run moves).Makes i q (.store (.createCode c))) :
    ∃ r p now, q = .issueCode r p now := by
  obtain ⟨t, -, rfl, -, r, p, now, -, hq, -⟩ := History.regime.allows_of_makes h
  rw [History.phase_eq] at hq
  exact ⟨r, p, now, hq⟩

end Makes

namespace System

section Minted

variable {w : World} {moves : List Move}

theorem minted_of_makes {s : System} {i : Nat} {q : Request} {r : TokenRecord}
    (h : s.Makes i q (.store (.createRecord r))) (reply : Reply) :
    ∃ t, (s.move (.step i reply)).threads[i]? = some t ∧ t.request = q ∧ r ∈ t.minted := by
  obtain ⟨⟨q, past, rest⟩, hi, rfl, next, hrest⟩ := h
  dsimp only at next hrest
  subst hrest
  obtain ⟨t, ht, hrequest, -⟩ := exists_getElem?_move hi (.step i reply)
  have hrun : (s.run [.step i reply]).threads[i]? = some t := ht
  have hmade := mem_past_of_moment hi hrun
  exact ⟨t, ht, hrequest, List.mem_filterMap.2 ⟨_, List.mem_filterMap.2 ⟨_, hmade, rfl⟩, rfl⟩⟩

theorem minted_subset_move (s : System) (m : Move) : s.minted ⊆ (s.move m).minted := by
  intro r hr
  obtain ⟨t, ht, hr⟩ := List.mem_flatMap.1 hr
  obtain ⟨i, hi⟩ := List.mem_iff_getElem?.1 ht
  obtain ⟨u, hu, -, hpast⟩ := exists_getElem?_move hi m
  refine List.mem_flatMap.2 ⟨u, List.mem_of_getElem? hu, ?_⟩
  exact List.filterMap_subset _ (List.filterMap_subset _ hpast) hr

/-- Each record was there from the start or was stored by a request. -/
theorem exists_origin (w : World) (moves : List Move) {x : String} {r : TokenRecord}
    (hr : ((start w).run moves).world.store.record? x = some r) :
    ∃ r₀ ∈ w.store.records ++ ((start w).run moves).minted, r₀.Grows r := by
  induction moves using List.reverseRecOn generalizing x r with
  | nil => exact ⟨r, List.mem_append_left _ (List.mem_of_find?_eq_some hr), .refl r⟩
  | append_singleton moves m ih =>
    have hmono : w.store.records ++ ((start w).run moves).minted ⊆
        w.store.records ++ (((start w).run moves).move m).minted := fun r hr =>
      List.mem_append.2 ((List.mem_append.1 hr).imp_right fun h => minted_subset_move _ m h)
    rw [run_concat] at hr ⊢
    rcases store_move ((start w).run moves) m with
      ⟨clients, users, hs⟩ | ⟨i, reply, q, c, rfl, hmakes, hs⟩
    · rw [hs] at hr
      obtain ⟨r₀, hr₀, hgrows⟩ := ih hr
      exact ⟨r₀, hmono hr₀, hgrows⟩
    rw [hs] at hr
    rcases Store.record?_perform _ c hr with ⟨r₁, hr₁, hgrows⟩ | ⟨he, -, -⟩
    · obtain ⟨r₀, hr₀, hgrows₀⟩ := ih hr₁
      exact ⟨r₀, hmono hr₀, hgrows₀.trans hgrows⟩
    · obtain rfl : c = .createRecord r := congrArg Sigma.fst he
      obtain ⟨t, ht, -, hmem⟩ := minted_of_makes hmakes reply
      refine ⟨r, List.mem_append_right _ ?_, .refl r⟩
      exact List.mem_flatMap.2 ⟨t, List.mem_of_getElem? ht, hmem⟩

variable {t : Thread}

theorem mem_calls_of_minted {r : TokenRecord} (hr : r ∈ t.minted) :
    ∃ a : Except StoreError Unit, ⟨.createRecord r, a⟩ ∈ t.calls := by
  obtain ⟨⟨c, a⟩, he, hrecord⟩ := List.mem_filterMap.1 hr
  cases c with
  | createRecord => cases hrecord; exact ⟨a, he⟩
  | _ => cases hrecord

theorem length_minted_le_one (ht : t ∈ ((start w).run moves).threads) : t.minted.length ≤ 1 := by
  have hlaw := Lineage.regime.lawful_of_start w moves t ht
  have hone : ((Lineage.regime.phase t).past.filterMap StoreEvent.record?).length ≤ 1 := by
    refine hlaw.1.keeps (P := fun φ => (φ.past.filterMap StoreEvent.record?).length ≤ 1) ?_
      (Nat.zero_le 1)
    intro φ c a hφ hc _
    cases c with
    | store c =>
      show ((φ.past ++ [(⟨c, a⟩ : StoreEvent)]).filterMap StoreEvent.record?).length ≤ 1
      rw [List.filterMap_append]
      cases c with
      | createRecord r =>
        rw [hc.1]
        exact Nat.le_refl 1
      | _ => exact Nat.le_trans (Nat.le_of_eq (congrArg List.length (List.append_nil _))) hφ
    | _ => exact hφ
  rwa [Lineage.phase_eq] at hone

theorem parent_of_minted (ht : t ∈ ((start w).run moves).threads) {r : TokenRecord}
    (hr : r ∈ t.minted) : r.parent = t.request.refreshId? := by
  obtain ⟨i, hi⟩ := List.mem_iff_getElem?.1 ht
  obtain ⟨a, he⟩ := mem_calls_of_minted hr
  obtain ⟨before, reply, after, -, hmakes, -⟩ := exists_moment hi (mem_past_of_mem_calls he)
  exact Chain.parent_of_makes hmakes

theorem single (ht : t ∈ ((start w).run moves).threads) : t.Single where
  one := length_minted_le_one ht
  parent _ hr := parent_of_minted ht hr
  asked hne := by
    obtain ⟨r, hr⟩ := List.exists_mem_of_ne_nil _ hne
    obtain ⟨a, he⟩ := mem_calls_of_minted hr
    have hlaw := History.regime.lawful_of_start w moves t ht
    have horigin : History.Origin t.request t.calls r := History.permits_of_mem hlaw he
    cases horigin with
    | issue hq => exact .inl ⟨_, _, _, hq⟩
    | @code c hfound =>
      have hcode : t.request.code? = some c.code := History.permits_of_mem hlaw hfound
      exact .inr (.inl (hcode ▸ rfl))
    | @refresh parent _ hcontinues =>
      have hrefresh : t.request.refreshId? = some parent.refreshId :=
        (parent_of_minted ht hr).symm.trans hcontinues.parent
      exact .inr (.inr (hrefresh ▸ rfl))

/-- If no two records have one identifier, that of a record that a request has stored leads to this
record. -/
theorem eq_of_id (hids : ((w.store.records ++ ((start w).run moves).minted).map (·.id)).Nodup)
    (ht : t ∈ ((start w).run moves).threads) {child : TokenRecord} (hchild : stored child ∈ t.calls)
    {x : String} {r : TokenRecord} (hr : ((start w).run moves).world.store.record? x = some r)
    (hid : r.id = child.id) : x = child.refreshId := by
  obtain ⟨r₀, hr₀, hgrows⟩ := exists_origin w moves hr
  have hmem : child ∈ w.store.records ++ ((start w).run moves).minted :=
    List.mem_append_right _ (List.mem_flatMap.2 ⟨t, ht, List.mem_filterMap.2 ⟨_, hchild, rfl⟩⟩)
  have hsame : r₀.id = r.id ∧ r₀.refreshId = r.refreshId := by
    rw [hgrows.same]
    exact ⟨rfl, rfl⟩
  obtain rfl : r₀ = child := List.inj_on_of_nodup_map hids hr₀ hmem (hsame.1.trans hid)
  rw [hsame.2, Store.record?_refreshId hr]

/-- A call sets marks of no records but what descends from the one that its request presents or
asks to revoke. -/
theorem descends_of_marks
    (hids : ((w.store.records ++ ((start w).run moves).minted).map (·.id)).Nodup) {i : Nat}
    {q : Request} {c : StoreCall} (h : ((start w).run moves).Makes i q (.store c)) {x : String}
    {r : TokenRecord} (hr : ((start w).run moves).world.store.record? x = some r)
    (hc : c.Marks ((start w).run moves).world.store r) :
    ∃ y, (q.refreshId? = some y ∨ q.revokes? = some y) ∧
      ((start w).run moves).world.store.Descends x y := by
  obtain rfl := Store.record?_refreshId hr
  cases c with
  | markRotated y =>
    obtain rfl : r.refreshId = y := hc
    exact ⟨_, .inl (Chain.refreshId?_of_markRotated h), .refl⟩
  | revokeByRefreshId y =>
    obtain rfl : r.refreshId = y := hc
    exact ⟨_, .inr (Chain.revokes?_of_makes h), .refl⟩
  | revokeChain y => exact ⟨y, .inl (Chain.refreshId?_of_revokeChain h), hc⟩
  | revokeRecord id =>
    obtain ⟨t, ht, rfl, child, hchild, rfl, y, hparent, hy⟩ := Lineage.permits_of_makes h
    refine ⟨y, .inl hy, .single ?_⟩
    rw [eq_of_id hids ht hchild hr hc, parent?_of_stored ht hchild, hparent]
  | _ => exact hc.elim

section Perform

variable {i : Nat} {q : Request} {c : StoreCall}
  (h : ((start w).run moves).Makes i q (.store c))

include h

theorem code_perform {v : String} {d : AuthorizationCode}
    (hd : ((start w).run moves).world.store.code? v = some d) :
    (((start w).run moves).world.store.perform c).2.code? v = some d ∨
      (((start w).run moves).world.store.perform c).2.code? v = some { d with used := true } ∧
        q.code? = some v := by
  rcases Store.code?_perform_of_some c hd with hsame | ⟨he, hused⟩
  · exact .inl hsame
  · obtain rfl : c = .markCodeUsed v := congrArg Sigma.fst he
    exact .inr ⟨hused, Spending.code?_of_makes h⟩

theorem newCode_perform {v : String} {d : AuthorizationCode}
    (hnone : ((start w).run moves).world.store.code? v = none)
    (hd : (((start w).run moves).world.store.perform c).2.code? v = some d) :
    ∃ r p now, q = .issueCode r p now := by
  rcases Store.code?_perform _ c v with hsame | ⟨d', he, rfl, -⟩ | ⟨-, hmap⟩
  · cases hnone.symm.trans (hsame.symm.trans hd)
  · obtain rfl : c = .createCode d' := congrArg Sigma.fst he
    exact History.issueCode_of_makes h
  · rw [hmap, hnone] at hd
    cases hd

theorem record_perform (hkeyed : ((start w).run moves).world.store.Keyed)
    (hids : ((w.store.records ++ ((start w).run moves).minted).map (·.id)).Nodup) {x : String}
    {r : TokenRecord} (hr : ((start w).run moves).world.store.record? x = some r) :
    ∃ r', r.Grows r' ∧ (((start w).run moves).world.store.perform c).2.record? x = some r' ∧
      (r' = r ∨ ∃ y, (q.refreshId? = some y ∨ q.revokes? = some y) ∧
        ((start w).run moves).world.store.Descends x y) := by
  obtain ⟨r', hr', hgrows⟩ := Store.extends_perform _ c x r hr
  refine ⟨r', hgrows, hr', ?_⟩
  by_cases hc : c.Marks ((start w).run moves).world.store r
  · exact .inr (descends_of_marks hids h hr hc)
  · exact .inl (Option.some.inj (hr'.symm.trans (hkeyed.record?_perform hr hc)))

theorem newRecord_perform (reply : Reply) {x : String} {r : TokenRecord}
    (hnone : ((start w).run moves).world.store.record? x = none)
    (hr : (((start w).run moves).world.store.perform c).2.record? x = some r) :
    ∃ t, (((start w).run moves).move (.step i reply)).threads[i]? = some t ∧ t.request = q ∧
      r ∈ t.minted := by
  rcases Store.record?_perform _ c hr with ⟨r₀, hr₀, -⟩ | ⟨he, -, -⟩
  · cases hnone.symm.trans hr₀
  · obtain rfl : c = .createRecord r := congrArg Sigma.fst he
    exact minted_of_makes h reply

end Perform

/-- A move that only changes registrations. -/
theorem Forward.of_register {s : System} {m : Move} {clients : List Client} {users : List User}
    (h : (s.move m).world.store = { s.world.store with clients, users }) : s.Forward m where
  code v c hc := .inl (by rw [h]; exact hc)
  newCode v c hnone hc := by
    rw [h] at hc
    cases hnone.symm.trans hc
  record x r hr := ⟨r, .refl r, by rw [h]; exact hr, .inl rfl⟩
  newRecord x r hnone hr := by
    rw [h] at hr
    cases hnone.symm.trans hr

theorem forward (hkeyed : w.store.Keyed)
    (hids : ((w.store.records ++ ((start w).run moves).minted).map (·.id)).Nodup) (m : Move) :
    ((start w).run moves).Forward m := by
  rcases store_move ((start w).run moves) m with
    ⟨clients, users, hstore⟩ | ⟨i, reply, q, c, rfl, hmakes, hstore⟩
  · exact .of_register hstore
  have hmoves : ((start w).run moves).Moves (.step i reply) i q := ⟨⟨reply, rfl⟩, _, hmakes⟩
  have hkeyed : ((start w).run moves).world.store.Keyed :=
    store_run hkeyed (fun _ _ _ h => h) (fun _ _ _ c _ h => h.perform c) moves
  refine ⟨fun v d hd => ?_, fun v d hnone hd => ?_, fun x r hr => ?_, fun x r hnone hr => ?_⟩
  · rw [hstore]
    exact (code_perform hmakes hd).imp_right fun ⟨hmarked, hv⟩ => ⟨hmarked, i, q, hmoves, hv⟩
  · rw [hstore] at hd
    obtain ⟨r, p, now, rfl⟩ := newCode_perform hmakes hnone hd
    exact ⟨i, r, p, now, hmoves⟩
  · rw [hstore]
    obtain ⟨r', hgrows, hr', hsame⟩ := record_perform hmakes hkeyed hids hr
    exact ⟨r', hgrows, hr', hsame.imp_right fun ⟨y, hy⟩ => ⟨i, q, y, hmoves, hy⟩⟩
  · rw [hstore] at hr
    obtain ⟨t, ht, rfl, hmem⟩ := newRecord_perform hmakes reply hnone hr
    exact ⟨i, t, hmoves, ht, hmem⟩

end Minted

theorem extends_run (s : System) (moves : List Move) :
    s.world.store.Extends (s.run moves).world.store := by
  induction moves using List.reverseRecOn with
  | nil => exact .refl _
  | append_singleton moves m ih =>
    rw [run_concat]
    have hmove : (s.run moves).world.store.Extends ((s.run moves).move m).world.store := by
      rcases store_move (s.run moves) m with ⟨clients, users, hs⟩ | ⟨-, -, -, c, -, -, hs⟩
      · rw [hs]
        exact fun x r hr => ⟨r, hr, .refl r⟩
      · rw [hs]
        exact Store.extends_perform _ c
    exact Store.Extends.trans ih hmove

section Withdrawal

variable {w : World} {x : String}

/-- Who gets to the end of an exchange has just marked the record. -/
theorem won_of_next {φ : Chain.Phase} {c : StoreCall} {a : Except StoreError c.Result}
    (hc : Chain.Allows φ c) {d : String} (h : φ.next c a = .won x d) :
    φ = .won x d ∨
      (⟨c, a⟩ : StoreEvent) = ⟨.markRotated x, (.ok true : Except StoreError Bool)⟩ := by
  cases c with
  | getRecord y =>
    obtain rfl : φ = .ready y := hc
    rcases a with e | _ | r
    · cases h
    · cases h
    · change Chain.Phase.afterRead y (.ok (some r)) = .won x d at h
      dsimp only [Chain.Phase.afterRead] at h
      split_ifs at h
  | createRecord r =>
    rcases φ <;> rcases a <;> first | exact .inl h | cases h
  | markRotated y =>
    obtain ⟨c, rfl⟩ := hc
    rcases a with e | _ | _ <;> cases h
    exact .inr rfl
  | revokeChain y => rcases a <;> cases h
  | _ => exact .inl h

/-- A revoked record is not marked as exchanged, so who has not done that yet does not get to. -/
theorem keeps_not_won (x : String) (i : Nat) :
    Chain.regime.Keeps (fun w ph => w.store.Revoked x ∧
      ∃ φ, ph[i]? = some φ ∧ ∀ c, φ ≠ .won x c) fun _ => True := by
  have hset : ∀ {s : Store} {ph : List Chain.Phase} {j : Nat} {ψ : Chain.Phase} {c : StoreCall}
      {a : Except StoreError c.Result}, (∃ φ, ph[i]? = some φ ∧ ∀ c, φ ≠ .won x c) →
      ph[j]? = some ψ → Chain.Allows ψ c →
      (⟨c, a⟩ : StoreEvent) ≠ ⟨.markRotated x, (.ok true : Except StoreError Bool)⟩ →
      ∃ φ, (ph.set j (ψ.next c a))[i]? = some φ ∧ ∀ c, φ ≠ .won x c := by
    rintro s ph j ψ c a ⟨φ, hi, hφ⟩ hj hc ha
    by_cases hij : j = i
    · subst hij
      obtain rfl : φ = ψ := Option.some.inj (hi.symm.trans hj)
      refine ⟨_, List.getElem?_set_self (List.getElem?_eq_some_iff.1 hi).1, fun d hd => ?_⟩
      exact (won_of_next hc hd).elim (hφ d) ha
    · exact ⟨φ, (List.getElem?_set_ne hij).trans hi, hφ⟩
  refine .ofStore (R := Chain.regime) (K := fun s ph => s.Revoked x ∧
    ∃ φ, ph[i]? = some φ ∧ ∀ c, φ ≠ .won x c) rfl ?_ ?_ ?_ ?_
  · rintro s ph q ⟨hx, φ, hi, hφ⟩
    exact ⟨hx, φ, (List.getElem?_append_left (List.getElem?_eq_some_iff.1 hi).1).trans hi, hφ⟩
  · exact fun s ph clients users h => h
  · rintro s ph j ψ c ⟨hx, hφ⟩ hj hc
    refine ⟨(s.extends_perform c).revoked hx, hset (s := s) hφ hj hc fun he => ?_⟩
    obtain rfl : c = .markRotated x := congrArg Sigma.fst he
    have hnot : ¬ s.Live x := fun hl => (Store.live_iff.1 hl).2.1 hx
    have hfalse : s.perform (.markRotated x) = (.ok false, s) := by
      show (s.markRotated x).map Except.ok id = _
      rw [Store.markRotated_of_not_live hnot]
      rfl
    rw [hfalse] at he
    cases he
  · rintro - e - - s ph j ψ c ⟨hx, hφ⟩ hj hc
    refine ⟨hx, hset (s := s) hφ hj hc fun he => ?_⟩
    cases he

/-- An exchange of a revoked refresh token that has not marked the record does not succeed. -/
theorem not_succeeded_of_revoked {moves more : List Move} {i : Nat} {q : Request} {t : Thread}
    (hx : ((start w).run moves).world.store.Revoked x)
    (hmakes : ((start w).run moves).Makes i q (.store (.markRotated x)))
    (hi : (((start w).run moves).run more).threads[i]? = some t) : t.succeeded = false := by
  obtain ⟨u, hu, rfl, -, c, hφ⟩ := Chain.regime.allows_of_makes hmakes
  have hphase : (Chain.regime.phases ((start w).run moves))[i]? = some (.stored x c) :=
    hφ ▸ Chain.regime.getElem?_phases hu
  have hlaw := Chain.regime.lawful_of_start w moves
  have hnot : ∀ d, Chain.Phase.stored x c ≠ .won x d := by
    rintro d ⟨⟩
  obtain ⟨-, φ, hlater, hnot⟩ := (keeps_not_won x i).run more hlaw
    ⟨hx, .stored x c, hphase, hnot⟩ fun _ _ _ => trivial
  rw [Chain.regime.getElem?_phases hi, Option.some.injEq] at hlater
  obtain ⟨v, hv, hrequest, -⟩ := exists_getElem?_run more hu
  obtain rfl : t = v := Option.some.inj (hi.symm.trans hv)
  refine Bool.eq_false_iff.2 fun ht => ?_
  obtain ⟨d, hd⟩ := Chain.won_of_succeeded
    (Chain.regime.lawful_run more hlaw t (List.mem_of_getElem? hi))
    (hrequest ▸ Chain.refreshId?_of_markRotated hmakes) ht
  exact hnot d (hlater.symm.trans hd)

/-- A record that is there is revoked once the store has performed the call of a revocation. -/
theorem keeps_withdrawn (x : String) (j : Nat) :
    Lineage.regime.Keeps (fun w ph => w.store.Known x ∧ ∀ φ, ph[j]? = some φ → ∀ b : Bool,
      (⟨.revokeByRefreshId x, .ok b⟩ : StoreEvent) ∈ φ.past → w.store.Revoked x) fun _ => True := by
  refine .ofStore (R := Lineage.regime) (K := fun s ph => s.Known x ∧ ∀ φ, ph[j]? = some φ →
    ∀ b : Bool, (⟨.revokeByRefreshId x, .ok b⟩ : StoreEvent) ∈ φ.past → s.Revoked x) rfl ?_ ?_ ?_ ?_
  · rintro s ph q ⟨hx, hrev⟩
    refine ⟨hx, fun φ hj b hb => hrev φ (getElem?_of_append hj ?_) b hb⟩
    rintro rfl
    exact absurd hb List.not_mem_nil
  · exact fun s ph clients users h => h
  · rintro s ph i ψ c ⟨hx, hrev⟩ hi -
    have hext := s.extends_perform c
    refine ⟨hext.known hx, fun φ hj b hb => ?_⟩
    rcases getElem?_set_cases hj with ⟨rfl, rfl⟩ | ⟨-, hj⟩
    · rcases List.mem_append.1 hb with hb | hb
      · exact hext.revoked (hrev ψ hi b hb)
      · obtain rfl : .revokeByRefreshId x = c := congrArg Sigma.fst (List.mem_singleton.1 hb)
        exact Store.revoked_revokeByRefreshId.2 (.inl ⟨hx, rfl⟩)
    · exact hext.revoked (hrev φ hj b hb)
  · rintro - e - - s ph i ψ c ⟨hx, hrev⟩ hi -
    refine ⟨hx, fun φ hj b hb => ?_⟩
    rcases getElem?_set_cases hj with ⟨rfl, rfl⟩ | ⟨-, hj⟩
    · rcases List.mem_append.1 hb with hb | hb
      · exact hrev ψ hi b hb
      · cases List.mem_singleton.1 hb
    · exact hrev φ hj b hb

theorem revoked_of_succeeded {before mid : List Move} {token : String} {j : Nat} {t : Thread}
    (hknown : ((start w).run before).world.store.Known (refreshIdOf token))
    (hmakes : ((start w).run before).Makes j (.revoke token)
      (.store (.revokeByRefreshId (refreshIdOf token))))
    (hj : (((start w).run before).run mid).threads[j]? = some t) (ht : t.succeeded) :
    (((start w).run before).run mid).world.store.Revoked (refreshIdOf token) := by
  obtain ⟨u, hu, hrequest, -, hnone⟩ := Lineage.regime.allows_of_makes hmakes
  have hlaw := Lineage.regime.lawful_of_start w before
  have hstart : ∀ φ, (Lineage.regime.phases ((start w).run before))[j]? = some φ → ∀ b : Bool,
      (⟨.revokeByRefreshId (refreshIdOf token), .ok b⟩ : StoreEvent) ∈ φ.past →
      ((start w).run before).world.store.Revoked (refreshIdOf token) := by
    intro φ hφ b hb
    rw [Lineage.regime.getElem?_phases hu, Option.some.injEq] at hφ
    subst hφ
    exact absurd (hnone ▸ hb) List.not_mem_nil
  have hkeep := (keeps_withdrawn (refreshIdOf token) j).run mid hlaw ⟨hknown, hstart⟩
    fun _ _ _ => trivial
  obtain ⟨v, hv, hsame, -⟩ := exists_getElem?_run mid hu
  obtain rfl : t = v := Option.some.inj (hj.symm.trans hv)
  obtain ⟨o, ho, hs⟩ := t.exists_done_of_succeeded ht
  have hfits := (Lineage.regime.lawful_run mid hlaw t (List.mem_of_getElem? hj)).fits ho
  have hphase := Lineage.regime.getElem?_phases hj
  obtain ⟨q, past, rest⟩ := t
  obtain rfl : q = .revoke token := hsame.trans hrequest
  rcases o with _ | _ | _
  · obtain ⟨b, hb⟩ := hfits () rfl
    exact hkeep.2 _ hphase b hb
  · cases hs
  · cases hs

end Withdrawal

end System

/-- Once a request to revoke a refresh token has succeeded that made its call when the record was
there, no exchange of the token succeeds that marks the record after that. -/
def World.Withdraws (w : World) : Prop :=
  ∀ (before mid late more : List Move) (token : String) (i j : Nat) (q : Request) (t u : Thread),
    ((System.start w).run before).world.store.Known (refreshIdOf token) →
    ((System.start w).run before).Makes j (.revoke token)
      (.store (.revokeByRefreshId (refreshIdOf token))) →
    ((System.start w).run (before ++ mid)).threads[j]? = some t → t.succeeded →
    ((System.start w).run (before ++ mid ++ late)).Makes i q
      (.store (.markRotated (refreshIdOf token))) →
    ((System.start w).run (before ++ mid ++ late ++ more)).threads[i]? = some u →
    u.succeeded = false

theorem World.withdraws (w : World) : w.Withdraws := by
  intro before mid late more token i j q t u hknown hmakes hj ht hlate hi
  rw [System.run_append] at hj
  have hrevoked := System.revoked_of_succeeded hknown hmakes hj ht
  rw [← System.run_append] at hrevoked
  have hlater := (System.extends_run _ late).revoked hrevoked
  rw [← System.run_append] at hlater
  rw [System.run_append] at hi
  exact System.not_succeeded_of_revoked hlater hlate hi

/-- Whatever is asked and in whatever order, and whichever calls the store fails in: if each record
has an identifier of its own, no move takes back anything or reaches beyond its request, no request
stores two records, and a revocation stands. -/
theorem history_moves_forward {w : World} (hkeyed : w.store.Keyed) {moves : List Move}
    (hids : ((w.store.records ++ ((System.start w).run moves).minted).map (·.id)).Nodup) :
    (∀ m, ((System.start w).run moves).Forward m) ∧
      (∀ t ∈ ((System.start w).run moves).threads, t.Single) ∧ w.Withdraws :=
  ⟨System.forward hkeyed hids, fun _ ht => System.single ht, w.withdraws⟩

/-- The refresh token of an exchange is revoked after the child is stored and before the record is
marked. -/
def Sample.outrun : List Move :=
  .start issuance :: steps 0 1 20 ++ .start (exchange 1) :: steps 1 2 8
    ++ .start (.revoke (refreshToken 1)) :: steps 2 3 5 ++ steps 1 2 20

/-- The revocation stands, and the exchange ends without tokens. -/
theorem history_moves_forward_outrun :
    Sample.world.store.Keyed ∧
    ((Sample.world.store.records ++
      ((System.start Sample.world).run Sample.outrun).minted).map (·.id)).Nodup ∧
    ((System.start Sample.world).run Sample.outrun).threads.map Thread.succeeded =
      [true, false, true] ∧
    (∀ m, ((System.start Sample.world).run Sample.outrun).Forward m) ∧
    (∀ t ∈ ((System.start Sample.world).run Sample.outrun).threads, t.Single) ∧
    Sample.world.Withdraws := by
  have hkeyed : Sample.world.store.Keyed := List.nodup_nil
  have hids : ((Sample.world.store.records ++
      ((System.start Sample.world).run Sample.outrun).minted).map (·.id)).Nodup := by
    decide +kernel
  exact ⟨hkeyed, hids, by decide +kernel, history_moves_forward hkeyed hids⟩

end TokenAuthority

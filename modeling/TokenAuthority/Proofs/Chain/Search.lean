import Mathlib.Data.Finset.Card
import TokenAuthority.Proofs.Chain.Descent

/-!
# A revocation as a search

What a revocation does can be found record by record: a search looks at an identifier, revokes its
record, and then looks at the records that continue it, in whatever order the store lists them.
However the parents are linked, the search ends (`wellFounded_step`), for each step either looks at
one more identifier or has one less to look at. All that it looks at descends from where it started,
and what it has left out descends through something that it has yet to look at (`Sound`), so that in
the end it has revoked what the revocation of a chain does (`Sound.ends`), no record twice.
-/

namespace TokenAuthority

open Relation

namespace Store

section Revocations

variable {s : Store} {ids ids' : List String} {x : String} {r : TokenRecord}

/-- A record after the revocation of some refresh identifiers. -/
def revokedIn (ids : List String) (r : TokenRecord) : TokenRecord :=
  if ids.contains r.refreshId then setRevoked r else r

/-- Whether the revocation of some refresh identifiers makes a difference to a record. -/
def due (ids : List String) (r : TokenRecord) : Bool := ids.contains r.refreshId && !r.revoked

/-- Revokes the records of some refresh identifiers, and gives the number of those that were not
revoked. -/
def revokeAll (s : Store) (ids : List String) : Nat × Store :=
  (s.records.countP (due ids), { s with records := s.records.map (revokedIn ids) })

theorem revokeChain_eq (s : Store) (x : String) : s.revokeChain x = s.revokeAll (s.chain x) := rfl

theorem revokedIn_of_revoked (h : r.revoked = true) : revokedIn ids r = r := by
  unfold revokedIn setRevoked
  split_ifs
  · rw [← h]
  · rfl

theorem revokedIn_append : revokedIn (ids ++ ids') r = revokedIn ids' (revokedIn ids r) := by
  by_cases hr : r.refreshId ∈ ids <;> by_cases hr' : r.refreshId ∈ ids' <;>
    simp [revokedIn, setRevoked, hr, hr']

theorem links_revokeAll : (s.revokeAll ids).2.links = s.links := by
  unfold revokeAll links
  rw [List.map_map]
  refine List.map_congr_left fun r _ => ?_
  unfold revokedIn
  simp only [Function.comp_apply]
  split_ifs <;> rfl

theorem revokeAll_congr (h : ∀ y, y ∈ ids ↔ y ∈ ids') : s.revokeAll ids = s.revokeAll ids' := by
  have hc : ids.contains = ids'.contains := by
    funext y
    simp only [List.contains_eq_mem, h]
  unfold revokeAll due revokedIn
  rw [hc]

theorem revokeAll_nil (s : Store) : s.revokeAll [] = (0, s) := by
  have hid : revokedIn [] = id := funext fun r => by simp [revokedIn]
  simp [revokeAll, due, hid]

theorem countP_due_append : ∀ l : List TokenRecord, l.countP (due (ids ++ ids')) =
    l.countP (due ids) + (l.map (revokedIn ids)).countP (due ids')
  | [] => rfl
  | r :: l => by
    have h : (if due (ids ++ ids') r then 1 else 0) =
        (if due ids r then 1 else 0) + if due ids' (revokedIn ids r) then 1 else 0 := by
      by_cases hr : r.refreshId ∈ ids <;> by_cases hr' : r.refreshId ∈ ids' <;>
        simp [due, revokedIn, setRevoked, hr, hr']
    rw [List.map_cons, List.countP_cons, List.countP_cons, List.countP_cons, countP_due_append l, h]
    omega

/-- What was revoked before is not revoked again. -/
theorem revokeAll_append (s : Store) (ids ids' : List String) :
    s.revokeAll (ids ++ ids') = ((s.revokeAll ids).1 + ((s.revokeAll ids).2.revokeAll ids').1,
      ((s.revokeAll ids).2.revokeAll ids').2) := by
  refine Prod.ext (countP_due_append s.records) ?_
  unfold revokeAll
  rw [List.map_map]
  exact congrArg (fun l => { s with records := l })
    (List.map_congr_left fun r _ => revokedIn_append)

theorem revokeAll_twice (s : Store) (ids : List String) :
    (s.revokeAll ids).2.revokeAll ids = (0, (s.revokeAll ids).2) := by
  have hids : s.revokeAll (ids ++ ids) = s.revokeAll ids := revokeAll_congr fun y => by simp
  have h := hids.symm.trans (revokeAll_append s ids ids)
  exact Prod.ext (by simpa using congrArg Prod.fst h) (congrArg Prod.snd h).symm

theorem countP_due_of_nodup : ∀ {l : List TokenRecord}, (l.map (·.refreshId)).Nodup →
    l.countP (due [x]) = if (l.find? (·.refreshId == x)).any (!·.revoked) then 1 else 0
  | [], _ => rfl
  | r :: l, h => by
    rw [List.map_cons, List.nodup_cons] at h
    by_cases hr : r.refreshId = x
    · have hrest : l.countP (due [x]) = 0 := List.countP_eq_zero.2 fun b hb hd => by
        have hbx : b.refreshId = x := by simp_all [due]
        exact h.1 (List.mem_map.2 ⟨b, hb, hbx.trans hr.symm⟩)
      simp [List.countP_cons, hrest, due, hr]
    · rw [List.countP_cons, countP_due_of_nodup h.2]
      simp [due, hr]

theorem revokeByRefreshId_fst :
    (s.revokeByRefreshId x).1 = (s.record? x).any (!·.revoked) := by
  rw [revokeByRefreshId_eq]
  rcases s.record? x with _ | r
  · rfl
  · cases hr : r.revoked <;> simp [hr]

/-- Where no identifier has two records, to revoke one record is to revoke all of its identifier. -/
theorem Keyed.revokeAll_single (h : s.Keyed) (x : String) : s.revokeAll [x] =
    (if (s.revokeByRefreshId x).1 then 1 else 0, (s.revokeByRefreshId x).2) := by
  refine Prod.ext ?_ ?_
  · rw [revokeByRefreshId_fst]
    unfold Keyed links at h
    rw [List.map_map] at h
    exact countP_due_of_nodup h
  have hsame (hrev : ∀ r, s.record? x = some r → r.revoked = true) : (s.revokeAll [x]).2 = s := by
    refine congrArg (fun l => { s with records := l })
      ((List.map_congr_left fun r hr => ?_).trans (List.map_id _))
    by_cases hrx : r.refreshId = x
    · exact revokedIn_of_revoked (hrev r (hrx ▸ h.record? hr))
    · simp [revokedIn, hrx]
  rw [revokeByRefreshId_eq]
  rcases hx : s.record? x with _ | r
  · exact hsame fun r hr => nomatch hx.symm.trans hr
  dsimp only
  split_ifs with hrev
  · exact hsame fun r' hr' => Option.some.inj (hx.symm.trans hr') ▸ hrev
  · refine congrArg (fun l => { s with records := l }) (Eq.trans ?_ (h.records_change _ x).symm)
    refine List.map_congr_left fun r _ => ?_
    simp [revokedIn]

end Revocations

/-- A search on its way: the identifiers to look at, those looked at, the store, and the number of
records revoked. -/
structure Search where
  pending : List String
  visited : List String
  store : Store
  revoked : Nat

namespace Search

variable {s : Store} {x : String} {t t' : Search}

def start (s : Store) (x : String) : Search := ⟨[x], [], s, 0⟩

/-- The search goes on with an identifier. The records that continue it come in any order. -/
inductive Step : Search → Search → Prop
  | seen {y : String} {rest visited : List String} {s : Store} {n : Nat} (hy : y ∈ visited) :
    Step ⟨y :: rest, visited, s, n⟩ ⟨rest, visited, s, n⟩
  | visit {y : String} {rest visited : List String} {s : Store} {n : Nat}
    {found : List TokenRecord} (hy : y ∉ visited)
    (hfound : found.Perm (children [y] (s.revokeByRefreshId y).2.records)) :
    Step ⟨y :: rest, visited, s, n⟩
      ⟨found.map (·.refreshId) ++ rest, y :: visited, (s.revokeByRefreshId y).2,
        n + if (s.revokeByRefreshId y).1 then 1 else 0⟩

theorem exists_step (h : t.pending ≠ []) : ∃ t', Step t t' := by
  obtain ⟨pending, visited, s, n⟩ := t
  obtain ⟨y, rest, rfl⟩ := List.exists_cons_of_ne_nil h
  by_cases hy : y ∈ visited
  · exact ⟨_, .seen hy⟩
  · exact ⟨_, .visit hy (.refl _)⟩

section Termination

/-- The identifiers that a search can come to look at yet. -/
def unseen (t : Search) : Finset String :=
  (t.pending ++ t.store.links.map (·.1)).toFinset \ t.visited.toFinset

theorem mem_unseen {y : String} :
    y ∈ t.unseen ↔ (y ∈ t.pending ∨ t.store.Known y) ∧ y ∉ t.visited := by
  rw [known_iff_mem_links]
  simp [unseen]

theorem known_of_mem_children {parents : List String} {y : String}
    (h : y ∈ (children parents s.records).map (·.refreshId)) : s.Known y := by
  obtain ⟨r, hr, rfl⟩ := List.mem_map.1 h
  refine known_iff_mem_links.2 (List.mem_map.2 ⟨(r.refreshId, r.parent), ?_, rfl⟩)
  exact List.mem_map.2 ⟨r, (List.mem_filter.1 hr).1, rfl⟩

/-- Either there is one identifier less to come to, or the same and one less to look at. -/
theorem Step.decreases (h : Step t t') :
    Prod.Lex (· < ·) (· < ·) (t'.unseen.card, t'.pending.length)
      (t.unseen.card, t.pending.length) := by
  cases h with
  | @seen y rest visited s n hy =>
    have hsub : unseen ⟨rest, visited, s, n⟩ ⊆ unseen ⟨y :: rest, visited, s, n⟩ := by
      intro z hz
      rw [mem_unseen] at hz ⊢
      exact ⟨hz.1.imp_left (List.mem_cons_of_mem y), hz.2⟩
    rcases (Finset.card_le_card hsub).lt_or_eq with hlt | heq
    · exact .left _ _ hlt
    · rw [heq]
      exact .right _ (by simp)
  | @visit y rest visited s n found hy hfound =>
    refine .left _ _ (Finset.card_lt_card ((Finset.ssubset_iff_of_subset ?_).2 ⟨y, ?_, ?_⟩))
    · intro z hz
      have hknown : (s.revokeByRefreshId y).2.Known z ↔ s.Known z := by
        rw [known_iff_mem_links, known_iff_mem_links, links_revokeByRefreshId]
      have hfound : z ∈ found.map (·.refreshId) → s.Known z := fun hz =>
        hknown.1 (known_of_mem_children ((hfound.map _).mem_iff.1 hz))
      rw [mem_unseen] at hz ⊢
      simp only [List.mem_append, List.mem_cons, hknown] at hz ⊢
      tauto
    · exact mem_unseen.2 ⟨.inl (List.mem_cons_self ..), hy⟩
    · exact fun h => (mem_unseen.1 h).2 (List.mem_cons_self ..)

theorem wellFounded_step : WellFounded fun t' t => Step t t' :=
  Subrelation.wf (fun h => h.decreases)
    (InvImage.wf (fun t : Search => (t.unseen.card, t.pending.length))
      (Prod.lex Nat.lt_wfRel Nat.lt_wfRel).wf)

end Termination

section Soundness

def Met (t : Search) (y : String) : Prop := y ∈ t.visited ∨ y ∈ t.pending

/-- What holds of a search on its way. -/
structure Sound (s : Store) (x : String) (t : Search) : Prop where
  start : t.Met x
  below : ∀ y, t.Met y → s.Descends y x
  /-- What continues an identifier that was looked at is looked at too, or will be. -/
  frontier : ∀ y z, y ∈ t.visited → s.parent? z = some y → t.Met z
  done : (t.revoked, t.store) = s.revokeAll t.visited

theorem sound_start (s : Store) (x : String) : Sound s x (start s x) where
  start := .inr (List.mem_singleton.2 rfl)
  below := by
    rintro y (hy | hy)
    · exact nomatch hy
    · rw [List.mem_singleton.1 hy]
      exact .refl
  frontier := fun _ _ hy => nomatch hy
  done := (revokeAll_nil s).symm

theorem Sound.step (hs : s.Keyed) (h : Sound s x t) (hstep : Step t t') : Sound s x t' := by
  cases hstep with
  | @seen y rest visited s' n hy =>
    have hmet (z : String) : Met ⟨rest, visited, s', n⟩ z ↔ Met ⟨y :: rest, visited, s', n⟩ z := by
      by_cases hz : z = y <;> simp [Met, hz, hy]
    exact ⟨(hmet x).2 h.start, fun z hz => h.below z ((hmet z).1 hz),
      fun a z ha hz => (hmet z).2 (h.frontier a z ha hz), h.done⟩
  | @visit y rest visited s' n found hy hfound =>
    obtain ⟨hn, rfl⟩ : n = (s.revokeAll visited).1 ∧ s' = (s.revokeAll visited).2 :=
      Prod.ext_iff.1 h.done
    have hlinks : ((s.revokeAll visited).2.revokeByRefreshId y).2.links = s.links :=
      links_revokeByRefreshId.trans links_revokeAll
    have hfound (z : String) : z ∈ found.map (·.refreshId) ↔ s.parent? z = some y := by
      have hkeyed : ((s.revokeAll visited).2.revokeByRefreshId y).2.Keyed := by
        rwa [Keyed, hlinks]
      rw [(hfound.map _).mem_iff, hkeyed.mem_children, parent?_eq_of_links hlinks]
    set t' : Search := ⟨found.map (·.refreshId) ++ rest, y :: visited, _, _⟩
    have hmet (z : String) : t'.Met z ↔
        Met ⟨y :: rest, visited, (s.revokeAll visited).2, n⟩ z ∨ s.parent? z = some y := by
      simp only [t', Met, List.mem_append, hfound, List.mem_cons]
      tauto
    refine ⟨(hmet x).2 (.inl h.start), fun z hz => ?_, fun a z ha hz => (hmet z).2 ?_, ?_⟩
    · rcases (hmet z).1 hz with hz | hz
      · exact h.below z hz
      · exact .head hz (h.below y (.inr (List.mem_cons_self ..)))
    · rcases List.mem_cons.1 ha with rfl | ha
      · exact .inr hz
      · exact .inl (h.frontier a z ha hz)
    · have hkeyed : (s.revokeAll visited).2.Keyed := by rwa [Keyed, links_revokeAll]
      have hids : s.revokeAll (y :: visited) = s.revokeAll (visited ++ [y]) :=
        revokeAll_congr fun z => by simp [or_comm]
      rw [hids, revokeAll_append, hkeyed.revokeAll_single, ← hn]

theorem Sound.run (hs : s.Keyed) (h : ReflTransGen Step (Search.start s x) t) : Sound s x t := by
  induction h with
  | refl => exact sound_start s x
  | tail _ hstep ih => exact ih.step hs hstep

theorem Sound.mem_visited (h : Sound s x t) (hend : t.pending = []) {y : String} :
    y ∈ t.visited ↔ s.Descends y x := by
  refine ⟨fun hy => h.below y (.inl hy), fun hyx => ?_⟩
  induction hyx using ReflTransGen.head_induction_on with
  | refl => exact h.start.resolve_right (by simp [hend])
  | @head a p hap _ ih => exact (h.frontier p a ih hap).resolve_right (by simp [hend])

theorem Sound.ends (hs : s.Keyed) (h : Sound s x t) (hend : t.pending = []) :
    (t.revoked, t.store) = s.revokeChain x := by
  rw [h.done, revokeChain_eq]
  exact revokeAll_congr fun y => (h.mem_visited hend).trans hs.mem_chain.symm

end Soundness

end Search

section Effect

variable {s : Store} {x : String}

/-- The records of a refresh identifier and of what descends from it are revoked, nothing else
changes, and the number is that of the records that were not revoked before. -/
structure RevokesBelow (s : Store) (x : String) (n : Nat) (s' : Store) : Prop where
  rest : s' = { s with records := s'.records }
  records : List.Forall₂ (fun r r' : TokenRecord => r' = { r with revoked := r'.revoked } ∧
    (r'.revoked = true ↔ r.revoked = true ∨ s.Descends r.refreshId x)) s.records s'.records
  number : n = (s.records.zip s'.records).countP fun (r, r') => !r.revoked && r'.revoked

theorem revoked_revokedIn {ids : List String} {r : TokenRecord} :
    (revokedIn ids r).revoked = (r.revoked || ids.contains r.refreshId) := by
  by_cases h : r.refreshId ∈ ids <;> simp [revokedIn, setRevoked, h]

theorem Keyed.revokesBelow (h : s.Keyed) (x : String) :
    RevokesBelow s x (s.revokeChain x).1 (s.revokeChain x).2 where
  rest := rfl
  records := by
    refine List.forall₂_map_right_iff.2 (List.forall₂_same.2 fun r _ => ⟨?_, ?_⟩)
    · split_ifs <;> rfl
    · rw [← h.mem_chain, ← List.contains_iff_mem, ← Bool.or_eq_true]
      exact iff_of_eq (congrArg (· = true) revoked_revokedIn)
  number := by
    have hdue (ids : List String) (r : TokenRecord) :
        due ids r = (!r.revoked && (revokedIn ids r).revoked) := by
      rw [revoked_revokedIn]
      cases hr : r.revoked <;> simp [due, hr]
    have hzip : s.records.zip (s.revokeChain x).2.records =
        s.records.map fun r => (r, revokedIn (s.chain x) r) :=
      List.map_prod_left_eq_zip.symm
    rw [hzip, List.countP_map]
    exact List.countP_congr fun r _ => iff_of_eq (congrArg (· = true) (hdue _ r))

theorem Keyed.revokeChain_twice (h : s.Keyed) (x : String) :
    (s.revokeChain x).2.revokeChain x = (0, (s.revokeChain x).2) := by
  have hkeyed : (s.revokeChain x).2.Keyed := by rwa [Keyed, links_revokeChain]
  have hchain (y : String) : y ∈ (s.revokeChain x).2.chain x ↔ y ∈ s.chain x := by
    rw [hkeyed.mem_chain, h.mem_chain, descends_eq_of_links links_revokeChain]
  rw [revokeChain_eq (s.revokeChain x).2, revokeAll_congr hchain, revokeChain_eq s, revokeAll_twice]

/-- However the store lists its records, a search for what descends from an identifier ends with what
the revocation of its chain does. -/
theorem revokeChain_reaches_descendants (h : s.Keyed) (x : String) :
    Acc (fun t' t => Search.Step t t') (.start s x) ∧
      (∀ t, ReflTransGen Search.Step (.start s x) t →
        (∃ t', Search.Step t t') ∨ t.pending = [] ∧ (t.revoked, t.store) = s.revokeChain x) ∧
      RevokesBelow s x (s.revokeChain x).1 (s.revokeChain x).2 ∧
      (s.revokeChain x).2.revokeChain x = (0, (s.revokeChain x).2) := by
  refine ⟨Search.wellFounded_step.apply _, fun t ht => ?_, h.revokesBelow x, h.revokeChain_twice x⟩
  by_cases hend : t.pending = []
  · exact .inr ⟨hend, (Search.Sound.run h ht).ends h hend⟩
  · exact .inl (Search.exists_step hend)

end Effect

end Store

namespace Sample

def link (refreshId : String) (parent : Option String) (revoked : Bool) : TokenRecord where
  id := "record-" ++ refreshId
  userId := some "u1"
  clientId := "c1"
  scope := "openid"
  accessToken := "token-" ++ refreshId
  refreshId := refreshId
  parent := parent
  rotated := false
  revoked := revoked
  accessExpiresAt := .ofMillis 0
  refreshExpiresAt := .ofMillis 0
  createdAt := .ofMillis 0

/-- A circle of two records, one of them with more children, one that is its own parent, and one
whose parent is not known. -/
def tangle : Store where
  clients := []
  users := []
  codes := []
  records := [link "a" (some "b") false, link "b" (some "a") false, link "c" (some "b") true,
    link "d" (some "c") false, link "e" (some "e") false, link "f" (some "ghost") false,
    link "g" none false]

end Sample

namespace Store

theorem tangle_revokes_descendants : Sample.tangle.Keyed ∧ (Sample.tangle.revokeChain "a").1 = 3 ∧
    RevokesBelow Sample.tangle "a" (Sample.tangle.revokeChain "a").1
      (Sample.tangle.revokeChain "a").2 := by
  have hkeyed : Sample.tangle.Keyed := by decide +kernel
  exact ⟨hkeyed, by decide +kernel, (revokeChain_reaches_descendants hkeyed "a").2.2.1⟩

end Store

end TokenAuthority

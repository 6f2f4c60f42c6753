import Mathlib.Logic.Relation
import Mathlib.Tactic.SplitIfs
import TokenAuthority.Store.Call

/-!
# Descent

The record of an exchange names the record it continues as its parent, so that records descend from
each other. What a revocation reaches is what descends from a record (`mem_chain`). Marks leave the
parents of all records as they are (`parent?_eq_of_links`), and a new record is no parent
(`Grounded.descends_add`), so what a record descends from is settled when it is stored.
-/

namespace TokenAuthority

open Relation

variable {α : Type}

namespace Store

theorem find?_updateFirst {key : α → String} {f : α → α} (hf : ∀ a, key (f a) = key a)
    (x y : String) : ∀ l : List α, (updateFirst (key · == x) f l).find? (key · == y) =
      (l.find? (key · == y)).map fun a => if y = x then f a else a
  | [] => rfl
  | a :: l => by
    have ih := find?_updateFirst hf x y l
    unfold updateFirst
    by_cases hx : key a = x <;> by_cases hy : key a = y
    · have hyx : y = x := hy.symm.trans hx
      simp [hx, hf, hyx]
    · have hyx : y ≠ x := fun h => hy (hx.trans h.symm)
      rcases l.find? (key · == y) with _ | b <;> simp_all
    · have hyx : y ≠ x := fun h => hx (hy.trans h)
      simp [hy, hyx]
    · simp [hx, hy, ih]

/-- With no key twice, the first one of a key is the only one. -/
theorem updateFirst_of_nodup {key : α → String} {f : α → α} {x : String} :
    ∀ {l : List α}, (l.map key).Nodup →
      updateFirst (key · == x) f l = l.map fun a => if key a = x then f a else a
  | [], _ => rfl
  | a :: l, h => by
    rw [List.map_cons, List.nodup_cons] at h
    unfold updateFirst
    by_cases ha : key a = x
    · have hrest : ∀ b ∈ l, (if key b = x then f b else b) = b := fun b hb =>
        if_neg fun hbx => h.1 (List.mem_map.2 ⟨b, hb, hbx.trans ha.symm⟩)
      rw [if_pos (by simpa using ha), List.map_cons, if_pos ha, List.map_congr_left hrest,
        List.map_id']
    · rw [if_neg (by simpa using ha), List.map_cons, if_neg ha, updateFirst_of_nodup h.2]

theorem map_updateFirst {β : Type} {g : α → β} {f : α → α} (hf : ∀ a, g (f a) = g a)
    (p : α → Bool) : ∀ l : List α, (updateFirst p f l).map g = l.map g
  | [] => rfl
  | a :: l => by
    unfold updateFirst
    split_ifs
    · simp [hf]
    · simp [map_updateFirst hf p l]

def Known (s : Store) (x : String) : Prop := ∃ r, s.record? x = some r

def Revoked (s : Store) (x : String) : Prop := ∃ r, s.record? x = some r ∧ r.revoked = true

def Rotated (s : Store) (x : String) : Prop := ∃ r, s.record? x = some r ∧ r.rotated = true

def Live (s : Store) (x : String) : Prop := ∃ r, s.record? x = some r ∧ r.live = true

instance (s : Store) (x : String) : Decidable (s.Revoked x) :=
  decidable_of_iff ((s.record? x).any (·.revoked) = true) (by simp [Revoked, Option.any_eq_true])

instance (s : Store) (x : String) : Decidable (s.Rotated x) :=
  decidable_of_iff ((s.record? x).any (·.rotated) = true) (by simp [Rotated, Option.any_eq_true])

/-- The refresh identifier that a record continues. -/
def parent? (s : Store) (x : String) : Option String := (s.record? x).bind (·.parent)

/-- A record continues another, through any number of exchanges. -/
def Descends (s : Store) : String → String → Prop := ReflTransGen fun a p => s.parent? a = some p

def links (s : Store) : List (String × Option String) :=
  s.records.map fun r => (r.refreshId, r.parent)

/-- No refresh identifier has two records. -/
def Keyed (s : Store) : Prop := (s.links.map (·.1)).Nodup

instance (s : Store) : Decidable s.Keyed := inferInstanceAs (Decidable (List.Nodup _))

section Flags

variable {s : Store} {x : String}

theorem Revoked.known (h : s.Revoked x) : s.Known x := h.imp fun _ h => h.1

theorem Live.known (h : s.Live x) : s.Known x := h.imp fun _ h => h.1

theorem known_of_parent? {p : String} (h : s.parent? x = some p) : s.Known x := by
  obtain ⟨r, hr, -⟩ := Option.bind_eq_some_iff.1 h
  exact ⟨r, hr⟩

theorem live_iff : s.Live x ↔ s.Known x ∧ ¬ s.Revoked x ∧ ¬ s.Rotated x := by
  unfold Live Known Revoked Rotated TokenRecord.live
  rcases s.record? x with _ | r <;> simp [and_comm]

theorem known_iff_mem_links : s.Known x ↔ x ∈ s.links.map (·.1) := by
  unfold Known record? links
  rw [← Option.isSome_iff_exists, List.find?_isSome]
  simp

theorem parent?_eq_find? (s : Store) (x : String) :
    s.parent? x = (s.links.find? (·.1 == x)).bind (·.2) := by
  unfold parent? record? links
  rw [List.find?_map, Option.bind_map]
  rfl

theorem parent?_eq_of_links {s' : Store} (h : s'.links = s.links) : s'.parent? = s.parent? := by
  funext x
  rw [parent?_eq_find?, parent?_eq_find?, h]

theorem descends_eq_of_links {s' : Store} (h : s'.links = s.links) : s'.Descends = s.Descends := by
  unfold Descends
  rw [parent?_eq_of_links h]

theorem record?_refreshId {r : TokenRecord} (h : s.record? x = some r) : r.refreshId = x := by
  simpa using List.find?_some h

theorem Keyed.record? (h : s.Keyed) {r : TokenRecord} (hr : r ∈ s.records) :
    s.record? r.refreshId = some r := by
  unfold Keyed links at h
  unfold Store.record?
  revert h hr
  induction s.records with
  | nil => simp
  | cons a l ih =>
    intro hnd hr
    simp only [List.map_cons, List.nodup_cons, List.mem_map] at hnd
    rcases List.mem_cons.1 hr with rfl | hr
    · simp
    · have hne : a.refreshId ≠ r.refreshId := fun he =>
        hnd.1 ⟨_, ⟨r, hr, rfl⟩, he.symm⟩
      rw [List.find?_cons_of_neg (by simpa using hne)]
      exact ih hnd.2 hr

end Flags

section Descendants

/-- One of some records continues another. -/
def Linked (rest : List TokenRecord) (a p : String) : Prop :=
  ∃ r ∈ rest, r.refreshId = a ∧ r.parent = some p

theorem childOf_iff {parents : List String} {r : TokenRecord} :
    childOf parents r ↔ ∃ p ∈ parents, r.parent = some p := by
  unfold childOf
  rcases r.parent with _ | q <;> simp

/-- A way up to some parents either stops at a child of theirs or leads, outside of their children,
to one. -/
theorem linked_others {parents : List String} {rest : List TokenRecord} {y p : String}
    (hp : p ∈ parents) (h : TransGen (Linked rest) y p) :
    y ∈ (children parents rest).map (·.refreshId) ∨
      ∃ q ∈ (children parents rest).map (·.refreshId),
        TransGen (Linked (others parents rest)) y q := by
  induction h using TransGen.head_induction_on with
  | single h =>
    obtain ⟨r, hr, rfl, hrp⟩ := h
    exact .inl (List.mem_map.2 ⟨r, List.mem_filter.2 ⟨hr, childOf_iff.2 ⟨p, hp, hrp⟩⟩, rfl⟩)
  | @head a z h _ ih =>
    obtain ⟨r, hr, rfl, hrz⟩ := h
    by_cases hc : childOf parents r
    · exact .inl (List.mem_map.2 ⟨r, List.mem_filter.2 ⟨hr, hc⟩, rfl⟩)
    · have hlink : Linked (others parents rest) r.refreshId z :=
        ⟨r, List.mem_filter.2 ⟨hr, by simpa using hc⟩, rfl, hrz⟩
      rcases ih with hz | ⟨q, hq, hz⟩
      · exact .inr ⟨z, hz, .single hlink⟩
      · exact .inr ⟨q, hq, .head hlink hz⟩

theorem mem_descendants (parents : List String) (rest : List TokenRecord) (y : String) :
    y ∈ descendants parents rest ↔ ∃ p ∈ parents, TransGen (Linked rest) y p := by
  induction parents, rest using descendants.induct with
  | case1 parents rest h =>
    rw [descendants, dif_pos h]
    simp only [List.not_mem_nil, false_iff, not_exists, not_and]
    intro p hp hy
    have := linked_others hp hy
    simp [h] at this
  | case2 parents rest h _ ids ih =>
    rw [descendants, dif_neg h, List.mem_append, ih]
    constructor
    · have up : ∀ q ∈ ids, ∃ p ∈ parents, Linked rest q p := by
        intro q hq
        obtain ⟨r, hr, rfl⟩ := List.mem_map.1 hq
        obtain ⟨hr, hc⟩ := List.mem_filter.1 hr
        obtain ⟨p, hp, hrp⟩ := childOf_iff.1 hc
        exact ⟨p, hp, r, hr, rfl, hrp⟩
      have sub : ∀ a b, Linked (others parents rest) a b → Linked rest a b := by
        rintro a b ⟨r, hr, h⟩
        exact ⟨r, (List.mem_filter.1 hr).1, h⟩
      rintro (hy | ⟨q, hq, hy⟩)
      · obtain ⟨p, hp, hyp⟩ := up y hy
        exact ⟨p, hp, .single hyp⟩
      · obtain ⟨p, hp, hqp⟩ := up q hq
        exact ⟨p, hp, .tail (TransGen.mono sub _ _ hy) hqp⟩
    · rintro ⟨p, hp, hy⟩
      exact linked_others hp hy

variable {s : Store}

theorem Keyed.linked_iff (h : s.Keyed) {a p : String} :
    Linked s.records a p ↔ s.parent? a = some p := by
  constructor
  · rintro ⟨r, hr, rfl, hrp⟩
    exact Option.bind_eq_some_iff.2 ⟨r, h.record? hr, hrp⟩
  · intro ha
    obtain ⟨r, hr, hrp⟩ := Option.bind_eq_some_iff.1 ha
    exact ⟨r, List.mem_of_find?_eq_some hr, record?_refreshId hr, hrp⟩

theorem Keyed.mem_children (h : s.Keyed) {x y : String} :
    y ∈ (children [x] s.records).map (·.refreshId) ↔ s.parent? y = some x := by
  rw [← h.linked_iff]
  unfold children Linked
  simp [childOf_iff, and_comm, and_left_comm]

/-- A revocation reaches a record and what descends from it. -/
theorem Keyed.mem_chain (h : s.Keyed) {x y : String} : y ∈ s.chain x ↔ s.Descends y x := by
  have hrel : Linked s.records = fun a p => s.parent? a = some p :=
    funext₂ fun _ _ => propext h.linked_iff
  unfold chain Descends
  rw [List.mem_cons, mem_descendants, hrel, reflTransGen_iff_eq_or_transGen]
  simp [eq_comm]

end Descendants

section Calls

variable {s : Store} {x y : String}

/-- The store with its first record of a refresh identifier changed. -/
def change (f : TokenRecord → TokenRecord) (s : Store) (x : String) : Store :=
  { s with records := updateFirst (·.refreshId == x) f s.records }

def setRotated (r : TokenRecord) : TokenRecord := { r with rotated := true }

def setRevoked (r : TokenRecord) : TokenRecord := { r with revoked := true }

theorem links_change {f : TokenRecord → TokenRecord}
    (hf : ∀ r, ((f r).refreshId, (f r).parent) = (r.refreshId, r.parent)) :
    (s.change f x).links = s.links :=
  map_updateFirst (g := fun r : TokenRecord => (r.refreshId, r.parent)) hf _ s.records

theorem record?_change {f : TokenRecord → TokenRecord} (hf : ∀ r, (f r).refreshId = r.refreshId) :
    (s.change f x).record? y = (s.record? y).map fun r => if y = x then f r else r :=
  find?_updateFirst hf x y s.records

theorem Keyed.records_change (h : s.Keyed) (f : TokenRecord → TokenRecord) (x : String) :
    (s.change f x).records = s.records.map fun r => if r.refreshId = x then f r else r := by
  unfold Keyed links at h
  rw [List.map_map] at h
  exact updateFirst_of_nodup h

theorem markRotated_of_live (h : s.Live x) : s.markRotated x = (true, s.change setRotated x) := by
  obtain ⟨r, hr, hl⟩ := h
  unfold markRotated
  rw [hr]
  exact if_pos hl

theorem markRotated_of_not_live (h : ¬ s.Live x) : s.markRotated x = (false, s) := by
  unfold markRotated
  rcases hr : s.record? x with _ | r
  · rfl
  · exact if_neg fun hl => h ⟨r, hr, hl⟩

theorem links_markRotated : (s.markRotated x).2.links = s.links := by
  by_cases h : s.Live x
  · rw [markRotated_of_live h]
    exact links_change fun _ => rfl
  · rw [markRotated_of_not_live h]

theorem revoked_markRotated : (s.markRotated x).2.Revoked y ↔ s.Revoked y := by
  by_cases h : s.Live x
  · rw [markRotated_of_live h]
    unfold Revoked
    rw [record?_change (f := setRotated) fun _ => rfl]
    rcases s.record? y with _ | r
    · simp
    · by_cases hy : y = x <;> simp [hy, setRotated]
  · rw [markRotated_of_not_live h]

theorem rotated_markRotated (h : s.Live x) :
    (s.markRotated x).2.Rotated y ↔ y = x ∨ s.Rotated y := by
  rw [markRotated_of_live h]
  unfold Rotated
  rw [record?_change (f := setRotated) fun _ => rfl]
  obtain ⟨r, hr, -⟩ := h
  by_cases hy : y = x <;> simp [hy, hr, setRotated]

theorem revokeByRefreshId_eq (s : Store) (x : String) : s.revokeByRefreshId x =
    match s.record? x with
    | none => (false, s)
    | some r => if r.revoked then (false, s) else (true, s.change setRevoked x) := rfl

theorem links_revokeByRefreshId : (s.revokeByRefreshId x).2.links = s.links := by
  rw [revokeByRefreshId_eq]
  rcases s.record? x with _ | r
  · rfl
  · dsimp only
    split_ifs
    · rfl
    · exact links_change fun _ => rfl

theorem revoked_revokeByRefreshId :
    (s.revokeByRefreshId x).2.Revoked y ↔ s.Known y ∧ y = x ∨ s.Revoked y := by
  rw [revokeByRefreshId_eq]
  rcases hr : s.record? x with _ | r
  · have hx : ¬ s.Known x := fun ⟨r, h⟩ => by simp [hr] at h
    exact ⟨.inr, fun h => h.elim (fun h => absurd (h.2 ▸ h.1) hx) id⟩
  dsimp only
  split_ifs with hrev
  · exact ⟨.inr, fun h => h.elim (fun h => h.2 ▸ ⟨r, hr, hrev⟩) id⟩
  unfold Revoked Known
  rw [record?_change (f := setRevoked) fun _ => rfl]
  rcases s.record? y with _ | r
  · simp
  · by_cases hy : y = x <;> simp [hy, setRevoked]

theorem links_revokeChain : (s.revokeChain x).2.links = s.links := by
  unfold revokeChain links
  rw [List.map_map]
  refine List.map_congr_left fun r _ => ?_
  simp only [Function.comp_apply]
  split_ifs <;> rfl

theorem record?_revokeChain : (s.revokeChain x).2.record? y =
    (s.record? y).map fun r => if y ∈ s.chain x then setRevoked r else r := by
  have hkey : (fun r : TokenRecord => r.refreshId == y) ∘ (fun r =>
      if (s.chain x).contains r.refreshId then { r with revoked := true } else r)
        = fun r => r.refreshId == y := by
    funext r
    simp only [Function.comp_apply]
    split_ifs <;> rfl
  have hrec : (s.revokeChain x).2.record? y =
      (s.record? y).map fun r => if (s.chain x).contains r.refreshId then setRevoked r else r := by
    unfold revokeChain Store.record?
    rw [List.find?_map, hkey]
    rfl
  rw [hrec]
  refine Option.map_congr fun r hr => ?_
  rw [record?_refreshId hr, List.contains_eq_mem]
  simp only [decide_eq_true_eq]

theorem revoked_revokeChain (h : s.Keyed) :
    (s.revokeChain x).2.Revoked y ↔ s.Known y ∧ s.Descends y x ∨ s.Revoked y := by
  unfold Revoked Known
  rw [record?_revokeChain, ← h.mem_chain]
  rcases s.record? y with _ | r
  · simp
  · by_cases hy : y ∈ s.chain x <;> simp [hy, setRevoked]

end Calls

section Create

variable {s : Store} {r : TokenRecord} {x y : String}

def add (s : Store) (r : TokenRecord) : Store := { s with records := s.records ++ [r] }

theorem createRecord_of_known (h : s.Known r.refreshId) :
    s.createRecord r = (.error (.duplicate "refresh identifier"), s) := by
  obtain ⟨r', hr⟩ := h
  simp [createRecord, hr]

theorem createRecord_of_not_known (h : ¬ s.Known r.refreshId) :
    s.createRecord r = (.ok (), s.add r) := by
  rcases hr : s.record? r.refreshId with _ | r'
  · simp [createRecord, hr, add]
  · exact absurd ⟨r', hr⟩ h

theorem links_add : (s.add r).links = s.links ++ [(r.refreshId, r.parent)] := by
  simp [links, add]

theorem Keyed.add (h : s.Keyed) (hr : ¬ s.Known r.refreshId) : (s.add r).Keyed := by
  unfold Keyed
  rw [links_add, List.map_append, List.nodup_append]
  refine ⟨h, by simp, ?_⟩
  rintro a ha b hb rfl
  rw [List.map_singleton, List.mem_singleton] at hb
  subst hb
  exact hr (known_iff_mem_links.2 ha)

theorem record?_add (h : ¬ s.Known r.refreshId) :
    (s.add r).record? y = if y = r.refreshId then some r else s.record? y := by
  have hadd : (s.add r).record? y = (s.record? y).or ([r].find? (·.refreshId == y)) :=
    List.find?_append
  rw [hadd]
  by_cases hy : y = r.refreshId
  · have hnone : s.record? y = none := by
      rw [Option.eq_none_iff_forall_ne_some]
      exact fun r' hr' => h ⟨r', hy ▸ hr'⟩
    subst hy
    simp [hnone]
  · have hne : [r].find? (·.refreshId == y) = none := by simpa using fun he => hy he.symm
    simp [hne, hy]

theorem known_add (h : ¬ s.Known r.refreshId) :
    (s.add r).Known y ↔ y = r.refreshId ∨ s.Known y := by
  unfold Known
  rw [record?_add h]
  split_ifs with hy <;> simp [hy]

theorem revoked_add (h : ¬ s.Known r.refreshId) (hl : r.live = true) :
    (s.add r).Revoked y ↔ s.Revoked y := by
  unfold Revoked
  rw [record?_add h]
  split_ifs with hy
  · have hnone : ¬ s.Known y := hy ▸ h
    have hrev : r.revoked = false := by simpa using (Bool.and_eq_true_iff.1 hl).2
    simp only [Option.some.injEq, exists_eq_left', hrev, Bool.false_eq_true, false_iff]
    exact fun hrev => hnone (Revoked.known hrev)
  · rfl

theorem parent?_add (h : ¬ s.Known r.refreshId) :
    (s.add r).parent? y = if y = r.refreshId then r.parent else s.parent? y := by
  unfold parent?
  rw [record?_add h]
  split_ifs <;> rfl

/-- The parent of each record is known. -/
def Grounded (s : Store) : Prop := ∀ a p, s.parent? a = some p → s.Known p

/-- A new record is no parent, so nothing that was there comes to descend from it. -/
theorem Grounded.descends_add (hs : s.Grounded) (h : ¬ s.Known r.refreshId)
    (hy : y ≠ r.refreshId) : (s.add r).Descends y x ↔ s.Descends y x := by
  constructor
  · intro hyx
    induction hyx using ReflTransGen.head_induction_on with
    | refl => exact .refl
    | @head a p hap _ ih =>
      rw [parent?_add h, if_neg hy] at hap
      exact .head hap (ih fun hp => h (hp ▸ hs a p hap))
  · refine ReflTransGen.mono (fun a p hap => ?_) _ _
    have ha : a ≠ r.refreshId := fun ha => h (ha ▸ known_of_parent? hap)
    rwa [parent?_add h, if_neg ha]

theorem descends_add_self (h : ¬ s.Known r.refreshId) :
    (s.add r).Descends r.refreshId x ↔
      x = r.refreshId ∨ ∃ p, r.parent = some p ∧ (s.add r).Descends p x := by
  have hself : (s.add r).parent? r.refreshId = r.parent := by rw [parent?_add h, if_pos rfl]
  unfold Descends
  rw [ReflTransGen.cases_head_iff, hself]
  simp [eq_comm]

end Create

end Store

end TokenAuthority

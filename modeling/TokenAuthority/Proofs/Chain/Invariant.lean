import TokenAuthority.Proofs.Chain.Growth
import TokenAuthority.Proofs.Chain.Phase

/-!
# The invariant of chains

A child is stored while its parent is still live, so for a time both are. What holds at all times
is that a record that is not revoked is on its way to be, or is the end of a line of exchanges each
of which has won or may still win (`Settled`). On its way to be revoked is what descends from a
child whose exchange can no longer win: that exchange is going to revoke the chain (`Doomed`).

The store does not fail here. All of this then holds after any moves (`System.Reachable.sound`).
-/

namespace TokenAuthority

open Relation

namespace Store

variable {s s' : Store} {x y : String}

theorem keyed_of_links (h : s'.links = s.links) (hs : s.Keyed) : s'.Keyed := by
  unfold Keyed
  rwa [h]

theorem grounded_of_links (h : s'.links = s.links) (hs : s.Grounded) : s'.Grounded := by
  intro a p hap
  rw [parent?_eq_of_links h] at hap
  exact known_iff_mem_links.2 (h ▸ known_iff_mem_links.1 (hs a p hap))

theorem Descends.known (h : s.Descends y x) (hx : s.Known x) : s.Known y := by
  rcases ReflTransGen.cases_head h with rfl | ⟨p, hp, -⟩
  · exact hx
  · exact known_of_parent? hp

end Store

namespace Chain

open Phase

/-- Whether a phase tells nothing of a chain. -/
def Phase.mute : Phase → Bool
  | apart | ready _ | found _ | replayed _ | torn _ _ | refused _ | failed _ => true
  | _ => false

/-- What the store shows of a phase. -/
def Backed (s : Store) : Phase → Prop
  | found x | replayed x => s.Known x
  | stored x c | beaten x c => s.parent? c = some x
  | won x c => s.parent? c = some x ∧ s.Rotated x
  | burned x => s.Revoked x
  | torn _ _ => False
  | _ => True

theorem Backed.mono {s s' : Store} (h : s.Extends s') :
    ∀ {φ : Phase}, Backed s φ → Backed s' φ
  | found _, hφ | replayed _, hφ => h.known hφ
  | stored _ _, hφ | beaten _ _, hφ => h.parent hφ
  | won _ _, hφ => ⟨h.parent hφ.1, h.rotated hφ.2⟩
  | burned _, hφ => h.revoked hφ
  | torn _ _, hφ => hφ
  | apart, _ | revoking _, _ | ready _, _ | refused _, _ | failed _, _ => trivial

/-- The exchange that put a record cannot win any more, and has not revoked the chain yet. -/
def Doomed (s : Store) (ph : List Phase) (c : String) : Prop :=
  ∃ x, beaten x c ∈ ph ∨ stored x c ∈ ph ∧ ¬ s.Live x

/-- A record descends from a doomed one, or all exchanges that led to it have won or may still
win. -/
def Settled (s : Store) (ph : List Phase) (y : String) : Prop :=
  (∃ b, s.Descends y b ∧ Doomed s ph b) ∨
    ∀ a p, s.Descends y a → s.parent? a = some p →
      burned p ∉ ph ∧ (stored p a ∈ ph ∨ won p a ∈ ph)

/-- A record was named in a request to revoke it, or descends from one whose chain was burned. -/
def Blamed (s : Store) (ph : List Phase) (y : String) : Prop :=
  revoking y ∈ ph ∨ ∃ x, burned x ∈ ph ∧ s.Descends y x

structure Sound (s : Store) (ph : List Phase) : Prop where
  keyed : s.Keyed
  grounded : s.Grounded
  backed : ∀ φ ∈ ph, Backed s φ
  once : ∀ {i j : Nat} {x c d : String}, ph[i]? = some (won x c) → ph[j]? = some (won x d) → i = j
  settled : ∀ y, ¬ s.Revoked y → Settled s ph y
  blamed : ∀ y, s.Revoked y → Blamed s ph y

section Transfer

variable {s s' : Store} {ph ph' : List Phase} {y : String}

theorem Sound.known_of_stored (h : Sound s ph) {x c : String} (hx : stored x c ∈ ph) :
    s.Known x := h.grounded c x (h.backed _ hx)

theorem Doomed.mono (h : Sound s ph) (hext : s.Extends s')
    (hbeaten : ∀ x c, beaten x c ∈ ph → beaten x c ∈ ph')
    (hstored : ∀ x c, stored x c ∈ ph → ¬ s.Live x → stored x c ∈ ph' ∨ beaten x c ∈ ph')
    {c : String} : Doomed s ph c → Doomed s' ph' c := by
  rintro ⟨x, hx | ⟨hx, hl⟩⟩
  · exact ⟨x, .inl (hbeaten x c hx)⟩
  · have hl' : ¬ s'.Live x := fun hl' => hl (hext.live (h.known_of_stored hx) hl')
    exact ⟨x, (hstored x c hx hl).elim (fun hx => .inr ⟨hx, hl'⟩) .inl⟩

theorem Blamed.mono (hext : s.Extends s') (hrevoking : ∀ x, revoking x ∈ ph → revoking x ∈ ph')
    (hburned : ∀ x, burned x ∈ ph → burned x ∈ ph') : Blamed s ph y → Blamed s' ph' y := by
  rintro (hy | ⟨x, hx, hd⟩)
  · exact .inl (hrevoking y hy)
  · exact .inr ⟨x, hburned x hx, hext.descends hd⟩

/-- A record stays settled if what it descends from stays doomed, and exchanges that may win or
have won do so unless they doom their child. -/
theorem Settled.transfer (h : Settled s ph y)
    (hdesc : ∀ a, s'.Descends y a ↔ s.Descends y a)
    (hparent : ∀ a, s.Descends y a → s'.parent? a = s.parent? a)
    (hdoomed : ∀ b, s.Descends y b → Doomed s ph b → Doomed s' ph' b)
    (hedge : ∀ a p, s.Descends y a → s.parent? a = some p → burned p ∉ ph →
      stored p a ∈ ph ∨ won p a ∈ ph →
      Doomed s' ph' a ∨ burned p ∉ ph' ∧ (stored p a ∈ ph' ∨ won p a ∈ ph')) :
    Settled s' ph' y := by
  rcases h with ⟨b, hb, hd⟩ | h
  · exact .inl ⟨b, (hdesc b).2 hb, hdoomed b hb hd⟩
  by_cases hd : ∃ b, s.Descends y b ∧ Doomed s' ph' b
  · obtain ⟨b, hb, hd⟩ := hd
    exact .inl ⟨b, (hdesc b).2 hb, hd⟩
  · refine .inr fun a p ha hp => ?_
    have ha := (hdesc a).1 ha
    have hp := (hparent a ha).symm.trans hp
    obtain ⟨hb, hw⟩ := h a p ha hp
    exact (hedge a p ha hp hb hw).resolve_left fun hd' => hd ⟨a, ha, hd'⟩

end Transfer

section Steps

variable {s : Store} {ph : List Phase} {i : Nat} {φ χ : Phase} {x c : String}

theorem Sound.settled_evolve (h : Sound s ph) {s' : Store} {ph' : List Phase} {y : String}
    (hext : s.Extends s') (hkeep : ∀ φ ∈ ph, φ.mute = false → φ ∈ ph')
    (hburned : ∀ p, burned p ∈ ph' → burned p ∈ ph)
    (hsame : ∀ a, (s'.Descends y a ↔ s.Descends y a) ∧
      (s.Descends y a → s'.parent? a = s.parent? a)) (hy : Settled s ph y) : Settled s' ph' y := by
  refine hy.transfer (fun a => (hsame a).1) (fun a => (hsame a).2) (fun b _ => ?_) ?_
  · exact Doomed.mono h hext (fun x c hx => hkeep _ hx rfl) fun x c hx _ => .inl (hkeep _ hx rfl)
  · exact fun a p _ _ hb hw => .inr ⟨fun hb' => hb (hburned p hb'),
      hw.imp (fun hw => hkeep _ hw rfl) fun hw => hkeep _ hw rfl⟩

/-- Whatever is put into a store and revoked on request, if no exchange is decided by it. -/
theorem Sound.evolve (h : Sound s ph) {s' : Store} {ph' : List Phase} (hext : s.Extends s')
    (hkeyed : s'.Keyed) (hgrounded : s'.Grounded) (hbacked : ∀ φ ∈ ph', Backed s' φ)
    (hwon : ∀ (j : Nat) x c, ph'[j]? = some (won x c) → ph[j]? = some (won x c))
    (hkeep : ∀ φ ∈ ph, φ.mute = false → φ ∈ ph') (hburned : ∀ p, burned p ∈ ph' → burned p ∈ ph)
    (hnew : ∀ y, Settled s' ph' y ∨ ∀ a, (s'.Descends y a ↔ s.Descends y a) ∧
      (s.Descends y a → s'.parent? a = s.parent? a))
    (hrevoked : ∀ y, s'.Revoked y → s.Revoked y ∨ revoking y ∈ ph') : Sound s' ph' where
  keyed := hkeyed
  grounded := hgrounded
  backed := hbacked
  once hi hj := h.once (hwon _ _ _ hi) (hwon _ _ _ hj)
  settled y hy := by
    rcases hnew y with hnew | hsame
    · exact hnew
    · exact h.settled_evolve hext hkeep hburned hsame (h.settled y fun hr => hy (hext.revoked hr))
  blamed y hy := by
    rcases hrevoked y hy with hy | hy
    · exact (h.blamed y hy).mono hext (fun _ hx => hkeep _ hx rfl) fun _ hx => hkeep _ hx rfl
    · exact .inl hy

theorem Sound.backed_set (h : Sound s ph) {s' : Store} (hext : s.Extends s') (hb : Backed s' χ) :
    ∀ φ ∈ ph.set i χ, Backed s' φ := by
  intro φ hφ
  rcases List.mem_or_eq_of_mem_set hφ with hφ | rfl
  · exact (h.backed φ hφ).mono hext
  · exact hb

theorem Sound.congr (h : Sound s ph) {s' : Store} (hs : s'.records = s.records) : Sound s' ph := by
  obtain ⟨clients, users, codes, records⟩ := s
  obtain ⟨clients', users', codes', records'⟩ := s'
  obtain rfl : records' = records := hs
  exact ⟨h.keyed, h.grounded, h.backed, h.once, h.settled, h.blamed⟩

theorem Sound.start (h : Sound s ph) (r : Request) : Sound s (ph ++ [start r]) := by
  have hstart : Backed s (Chain.start r) ∧ (∀ x c, Chain.start r ≠ won x c) ∧
      ∀ p, Chain.start r ≠ burned p := by
    unfold Chain.start
    rcases r.refreshId? with _ | x <;> rcases r.revokes? with _ | y <;>
      exact ⟨trivial, nofun, nofun⟩
  refine h.evolve (.refl s) h.keyed h.grounded ?_ ?_ ?_ ?_ ?_ fun _ => .inl
  · exact List.forall_mem_append.2 ⟨h.backed, by simpa using hstart.1⟩
  · exact fun j x c hj => getElem?_of_append hj (hstart.2.1 x c).symm
  · exact fun φ hφ _ => List.mem_append_left _ hφ
  · intro p hp
    exact (List.mem_append.1 hp).resolve_right fun hp =>
      hstart.2.2 p (List.mem_singleton.1 hp).symm
  · exact fun y => .inr fun a => ⟨Iff.rfl, fun _ => rfl⟩

theorem Sound.mute (h : Sound s ph) (hi : ph[i]? = some φ) (hφ : φ.mute) (hχ : χ.mute)
    (hb : Backed s χ) : Sound s (ph.set i χ) := by
  refine h.evolve (.refl s) h.keyed h.grounded (h.backed_set (.refl s) hb) ?_ ?_ ?_ ?_
    fun _ => .inl
  · intro j x c hj
    exact getElem?_of_set hj fun he => by simp [← he, Phase.mute] at hχ
  · intro ψ hψ hm
    exact mem_set_of_mem hi hψ fun he => by simp [← he, hm] at hφ
  · intro p hp
    exact mem_of_mem_set hp fun he => by simp [← he, Phase.mute] at hχ
  · exact fun y => .inr fun a => ⟨Iff.rfl, fun _ => rfl⟩

theorem Sound.revoke (h : Sound s ph) (hi : ph[i]? = some (revoking x)) :
    Sound (s.revokeByRefreshId x).2 ph := by
  have hext := s.extends_perform (.revokeByRefreshId x)
  have hlinks := Store.links_revokeByRefreshId (s := s) (x := x)
  refine h.evolve hext (Store.keyed_of_links hlinks h.keyed)
    (Store.grounded_of_links hlinks h.grounded)
    (fun φ hφ => (h.backed φ hφ).mono hext) (fun _ _ _ hj => hj)
    (fun _ hφ _ => hφ) (fun _ hp => hp) ?_ ?_
  · rw [Store.descends_eq_of_links hlinks, Store.parent?_eq_of_links hlinks]
    exact fun y => .inr fun a => ⟨Iff.rfl, fun _ => rfl⟩
  · intro y hy
    rcases Store.revoked_revokeByRefreshId.1 hy with ⟨-, rfl⟩ | hy
    · exact .inr (List.mem_of_getElem? hi)
    · exact .inl hy

/-- A new record changes nothing for the others. -/
theorem Sound.descends_add (h : Sound s ph) {r : TokenRecord} (hr : ¬ s.Known r.refreshId)
    {y : String} (hy : y ≠ r.refreshId) (a : String) :
    ((s.add r).Descends y a ↔ s.Descends y a) ∧
      (s.Descends y a → (s.add r).parent? a = s.parent? a) := by
  refine ⟨h.grounded.descends_add hr hy, fun hd => ?_⟩
  have ha : a ≠ r.refreshId := by
    rintro rfl
    rcases ReflTransGen.cases_tail hd with he | ⟨b, -, hb⟩
    · exact hy he.symm
    · exact hr (h.grounded b _ hb)
  rw [Store.parent?_add hr, if_neg ha]

theorem Sound.grounded_add (h : Sound s ph) {r : TokenRecord} (hr : ¬ s.Known r.refreshId)
    (hp : ∀ p, r.parent = some p → s.Known p) : (s.add r).Grounded := by
  intro a p hap
  rw [Store.parent?_add hr] at hap
  split_ifs at hap
  · exact (Store.known_add hr).2 (.inr (hp p hap))
  · exact (Store.known_add hr).2 (.inr (h.grounded a p hap))

theorem Sound.root (h : Sound s ph) {r : TokenRecord} (hr : ¬ s.Known r.refreshId)
    (hl : r.live = true) (hp : r.parent = none) : Sound (s.add r) ph := by
  have hext := Store.extends_add hr
  refine h.evolve hext (h.keyed.add hr) (h.grounded_add hr fun p hp' => by simp [hp] at hp')
    (fun φ hφ => (h.backed φ hφ).mono hext) (fun _ _ _ hj => hj) (fun _ hφ _ => hφ)
    (fun _ hp => hp) (fun y => ?_) fun y hy => .inl ((Store.revoked_add hr hl).1 hy)
  by_cases hy : y = r.refreshId
  · subst hy
    have hparent : (s.add r).parent? r.refreshId = none := by
      rw [Store.parent?_add hr, if_pos rfl, hp]
    refine .inl (.inr fun a p ha hap => ?_)
    rcases (Store.descends_add_self hr).1 ha with rfl | ⟨q, hq, -⟩
    · simp [hparent] at hap
    · simp [hp] at hq
  · exact .inr (h.descends_add hr hy)

theorem Sound.child (h : Sound s ph) (hi : ph[i]? = some (found x)) {r : TokenRecord}
    (hr : ¬ s.Known r.refreshId) (hl : r.live = true) (hp : r.parent = some x) :
    Sound (s.add r) (ph.set i (stored x r.refreshId)) := by
  have hext := Store.extends_add hr
  have hx : s.Known x := h.backed _ (List.mem_of_getElem? hi)
  have hparent : (s.add r).parent? r.refreshId = some x := by
    rw [Store.parent?_add hr, if_pos rfl, hp]
  have hkeep : ∀ φ ∈ ph, φ.mute = false → φ ∈ ph.set i (stored x r.refreshId) :=
    fun φ hφ hm => mem_set_of_mem hi hφ fun he => by simp [he, Phase.mute] at hm
  have hburned : ∀ p, burned p ∈ ph.set i (stored x r.refreshId) → burned p ∈ ph :=
    fun p hp => mem_of_mem_set hp nofun
  have hnew : stored x r.refreshId ∈ ph.set i (stored x r.refreshId) := mem_set_self hi
  refine h.evolve hext (h.keyed.add hr) (h.grounded_add hr fun p hp' => ?_)
    (h.backed_set hext hparent) (fun _ _ _ hj => getElem?_of_set hj nofun) hkeep hburned
    (fun y => ?_) fun y hy => .inl ((Store.revoked_add hr hl).1 hy)
  · obtain rfl : x = p := Option.some.inj (hp.symm.trans hp')
    exact hx
  by_cases hy : y = r.refreshId
  · subst hy
    left
    -- the new record goes on where its parent's line stands, if that can still win
    by_cases hlive : s.Live x
    · have hne : x ≠ r.refreshId := fun he => hr (he ▸ hx)
      have hxset := h.settled_evolve hext hkeep hburned (h.descends_add hr hne)
        (h.settled x (Store.live_iff.1 hlive).2.1)
      rcases hxset with ⟨b, hb, hd⟩ | hxset
      · exact .inl ⟨b, .head hparent hb, hd⟩
      refine .inr fun a p ha hap => ?_
      rcases (Store.descends_add_self hr).1 ha with rfl | ⟨q, hq, ha⟩
      · obtain rfl : x = p := Option.some.inj (hparent.symm.trans hap)
        have hnot : burned x ∉ ph := fun hb => (Store.live_iff.1 hlive).2.1 (h.backed _ hb)
        exact ⟨fun hb => hnot (hburned x hb), .inl hnew⟩
      · obtain rfl : x = q := Option.some.inj (hp.symm.trans hq)
        exact hxset a p ha hap
    · exact .inl ⟨_, .refl, x, .inr ⟨hnew, fun hl' => hlive (hext.live hx hl')⟩⟩
  · exact .inr (h.descends_add hr hy)

theorem Sound.win (h : Sound s ph) (hi : ph[i]? = some (stored x c)) (hl : s.Live x) :
    Sound (s.markRotated x).2 (ph.set i (won x c)) := by
  have hext := s.extends_perform (.markRotated x)
  have hlinks := Store.links_markRotated (s := s) (x := x)
  have hrot : (s.markRotated x).2.Rotated x := (Store.rotated_markRotated hl).2 (.inl rfl)
  -- the record was live, so no exchange of it can have won before
  have hfirst : ∀ (j : Nat) d, ph[j]? ≠ some (won x d) := fun j d hj =>
    (Store.live_iff.1 hl).2.2 (h.backed _ (List.mem_of_getElem? hj)).2
  have hkeep : ∀ ψ ∈ ph, ψ ≠ stored x c → ψ ∈ ph.set i (won x c) :=
    fun ψ hψ hne => mem_set_of_mem hi hψ hne
  refine ⟨Store.keyed_of_links hlinks h.keyed, Store.grounded_of_links hlinks h.grounded,
    h.backed_set hext ⟨hext.parent (h.backed _ (List.mem_of_getElem? hi)), hrot⟩, ?_, ?_, ?_⟩
  · intro a b y d e ha hb
    by_cases hy : y = x
    · have hi : ∀ (j : Nat) d, (ph.set i (won x c))[j]? = some (won x d) → i = j := by
        intro j d hj
        rcases getElem?_set_cases hj with ⟨hij, -⟩ | ⟨-, hj⟩
        · exact hij
        · exact absurd hj (hfirst j d)
      subst hy
      exact (hi a d ha).symm.trans (hi b e hb)
    · have hne : ∀ d, won y d ≠ won x c := fun d he => hy (Phase.won.inj he).1
      exact h.once (getElem?_of_set ha (hne d)) (getElem?_of_set hb (hne e))
  · intro y hy
    refine (h.settled y fun hr => hy (hext.revoked hr)).transfer ?_ ?_ (fun b _ => ?_) ?_
    · exact fun a => by rw [Store.descends_eq_of_links hlinks]
    · exact fun a _ => by rw [Store.parent?_eq_of_links hlinks]
    · refine Doomed.mono h hext (fun q d hq => hkeep _ hq nofun) fun q d hq hd =>
        .inl (hkeep _ hq ?_)
      rintro ⟨⟩
      exact hd hl
    · intro a p _ _ hb hw
      refine .inr ⟨fun hb' => hb (mem_of_mem_set hb' nofun), ?_⟩
      rcases hw with hw | hw
      · by_cases he : stored p a = stored x c
        · cases he
          exact .inr (mem_set_self hi)
        · exact .inl (hkeep _ hw he)
      · exact .inr (hkeep _ hw nofun)
  · intro y hy
    exact (h.blamed y (Store.revoked_markRotated.1 hy)).mono hext
      (fun _ hx => hkeep _ hx nofun) fun _ hx => hkeep _ hx nofun

theorem Sound.lose (h : Sound s ph) (hi : ph[i]? = some (stored x c)) :
    Sound s (ph.set i (beaten x c)) := by
  have hkeep : ∀ ψ ∈ ph, ψ ≠ stored x c → ψ ∈ ph.set i (beaten x c) :=
    fun ψ hψ hne => mem_set_of_mem hi hψ hne
  have hparent : s.parent? c = some x := h.backed _ (List.mem_of_getElem? hi)
  refine ⟨h.keyed, h.grounded, h.backed_set (.refl s) hparent,
    fun hi hj => h.once (getElem?_of_set hi nofun) (getElem?_of_set hj nofun), ?_, ?_⟩
  · intro y hy
    refine (h.settled y hy).transfer (fun _ => Iff.rfl) (fun _ _ => rfl) (fun b _ => ?_) ?_
    · refine Doomed.mono h (.refl s) (fun q d hq => hkeep _ hq nofun) fun q d hq _ => ?_
      by_cases he : stored q d = stored x c
      · cases he
        exact .inr (mem_set_self hi)
      · exact .inl (hkeep _ hq he)
    · intro a p _ _ hb hw
      have hb' : burned p ∉ ph.set i (beaten x c) := fun hb' => hb (mem_of_mem_set hb' nofun)
      rcases hw with hw | hw
      · by_cases he : stored p a = stored x c
        · cases he
          exact .inl ⟨x, .inl (mem_set_self hi)⟩
        · exact .inr ⟨hb', .inl (hkeep _ hw he)⟩
      · exact .inr ⟨hb', .inr (hkeep _ hw nofun)⟩
  · intro y hy
    exact (h.blamed y hy).mono (.refl s) (fun _ hx => hkeep _ hx nofun) fun _ hx =>
      hkeep _ hx nofun

theorem Sound.burn (h : Sound s ph) (hi : ph[i]? = some φ)
    (hφ : φ = replayed x ∨ ∃ c, φ = beaten x c) :
    Sound (s.revokeChain x).2 (ph.set i (burned x)) := by
  have hext := s.extends_revokeChain x
  have hlinks := Store.links_revokeChain (s := s) (x := x)
  have hmem := List.mem_of_getElem? hi
  have hx : s.Known x := by
    rcases hφ with rfl | ⟨c, rfl⟩
    · exact h.backed _ hmem
    · exact h.grounded c x (h.backed _ hmem)
  have hrevoked : ∀ y, (s.revokeChain x).2.Revoked y ↔ s.Descends y x ∨ s.Revoked y := by
    intro y
    rw [Store.revoked_revokeChain h.keyed]
    exact or_congr_left ⟨fun hy => hy.2, fun hy => ⟨hy.known hx, hy⟩⟩
  have hkeep : ∀ ψ ∈ ph, ψ ≠ φ → ψ ∈ ph.set i (burned x) :=
    fun ψ hψ hne => mem_set_of_mem hi hψ hne
  have hstored : ∀ q d, stored q d ≠ φ := by
    rcases hφ with rfl | ⟨c, rfl⟩
    · exact nofun
    · exact nofun
  have hwon : ∀ q d, won q d ≠ φ := by
    rcases hφ with rfl | ⟨c, rfl⟩
    · exact nofun
    · exact nofun
  have hblame : ∀ y, φ ≠ revoking y ∧ φ ≠ burned y := by
    rcases hφ with rfl | ⟨c, rfl⟩
    · exact fun y => ⟨nofun, nofun⟩
    · exact fun y => ⟨nofun, nofun⟩
  refine ⟨Store.keyed_of_links hlinks h.keyed, Store.grounded_of_links hlinks h.grounded,
    h.backed_set hext ((hrevoked x).2 (.inl .refl)),
    fun hi hj => h.once (getElem?_of_set hi nofun) (getElem?_of_set hj nofun), ?_, ?_⟩
  · intro y hy
    -- what is left does not descend from `x`, so none of its exchanges is decided by this
    rw [hrevoked, not_or] at hy
    refine (h.settled y hy.2).transfer ?_ ?_ ?_ ?_
    · exact fun a => by rw [Store.descends_eq_of_links hlinks]
    · exact fun a _ => by rw [Store.parent?_eq_of_links hlinks]
    · rintro b hyb ⟨q, hq | ⟨hq, hl⟩⟩
      · refine ⟨q, .inl (hkeep _ hq ?_)⟩
        rintro rfl
        obtain rfl : q = x := by simpa using hφ
        exact hy.1 (.tail hyb (h.backed _ hq))
      · exact ⟨q, .inr ⟨hkeep _ hq (hstored q b),
          fun hl' => hl (hext.live (h.known_of_stored hq) hl')⟩⟩
    · intro a p hya hap hb hw
      refine .inr ⟨fun hb' => ?_, ?_⟩
      · have hpx : p ≠ x := by
          rintro rfl
          exact hy.1 (.tail hya hap)
        exact hb (mem_of_mem_set hb' fun he => hpx (Phase.burned.inj he))
      · exact hw.imp (fun hw => hkeep _ hw (hstored p a)) fun hw => hkeep _ hw (hwon p a)
  · intro y hy
    rcases (hrevoked y).1 hy with hy | hy
    · exact .inr ⟨x, mem_set_self hi, hext.descends hy⟩
    · exact (h.blamed y hy).mono hext (fun z hz => hkeep _ hz (hblame z).1.symm) fun z hz =>
        hkeep _ hz (hblame z).2.symm

theorem Sound.idle (h : Sound s ph) (hi : ph[i]? = some φ) {s' : Store}
    (hs : s'.records = s.records) : Sound s' (ph.set i φ) := by
  rw [set_eq_self hi]
  exact h.congr hs

theorem Sound.read (h : Sound s ph) (hi : ph[i]? = some (ready x)) :
    Sound s (ph.set i (afterRead x (.ok (s.record? x)))) := by
  rcases hr : s.record? x with _ | r
  · exact h.mute hi rfl rfl trivial
  dsimp only [afterRead]
  split_ifs
  · exact h.mute hi rfl rfl trivial
  · exact h.mute hi rfl rfl ⟨r, hr⟩
  · exact h.mute hi rfl rfl ⟨r, hr⟩

theorem Sound.create (h : Sound s ph) (hi : ph[i]? = some φ) {r : TokenRecord}
    (hc : Allows φ (.createRecord r)) :
    Sound (s.createRecord r).2 (ph.set i (φ.afterCreate r.refreshId (s.createRecord r).1)) := by
  obtain ⟨hl, hc⟩ := hc
  by_cases hr : s.Known r.refreshId
  · rw [Store.createRecord_of_known hr]
    rcases hc with ⟨rfl, -⟩ | ⟨x, rfl, -⟩
    · exact h.idle hi rfl
    · exact h.mute hi rfl rfl trivial
  · rw [Store.createRecord_of_not_known hr]
    rcases hc with ⟨rfl, hp⟩ | ⟨x, rfl, hp⟩
    · exact (h.root hr hl hp).idle hi rfl
    · exact h.child hi hr hl hp

theorem Sound.mark (h : Sound s ph) (hi : ph[i]? = some (stored x c)) :
    Sound (s.markRotated x).2 (ph.set i (afterMark (stored x c) (.ok (s.markRotated x).1))) := by
  by_cases hl : s.Live x
  · have hwin := h.win hi hl
    rw [Store.markRotated_of_live hl] at hwin ⊢
    exact hwin
  · rw [Store.markRotated_of_not_live hl]
    exact h.lose hi

/-- Each call that a phase allows keeps the invariant, if the store performs it. -/
theorem Sound.perform (h : Sound s ph) (hi : ph[i]? = some φ) (c : StoreCall) (hc : Allows φ c) :
    Sound (s.perform c).2 (ph.set i (φ.next c (s.perform c).1)) := by
  cases c with
  | getRecord x =>
    obtain rfl : φ = ready x := hc
    exact h.read hi
  | createRecord r => exact h.create hi hc
  | markRotated x =>
    obtain ⟨c, rfl⟩ := hc
    exact h.mark hi
  | revokeRecord id =>
    obtain ⟨x, c, rfl⟩ := hc
    exact (h.backed _ (List.mem_of_getElem? hi)).elim
  | revokeByRefreshId x =>
    obtain rfl : φ = revoking x := hc
    exact (h.revoke hi).idle hi rfl
  | revokeChain x => exact h.burn hi hc
  | createCode c =>
    refine h.idle hi ?_
    simp only [Store.perform, Store.createCode]
    split <;> rfl
  | markCodeUsed code =>
    refine h.idle hi ?_
    simp only [Store.perform, Store.markCodeUsed]
    split
    · rfl
    · split_ifs <;> rfl
  | _ => exact h.idle hi rfl

end Steps

theorem keeps_sound : regime.Keeps (fun w ph => Sound w.store ph) fun reply => reply.healthy :=
  .ofStore rfl (fun _ _ r h => h.start r) (fun _ _ _ _ h => h.congr rfl)
    (fun _ _ _ _ c h hi hc => h.perform hi c hc) fun reply e hok hf => by
      simp [Reply.healthy, hf] at hok

theorem sound_empty {s : Store} (hs : s.records = []) : Sound s [] where
  keyed := by simp [Store.Keyed, Store.links, hs]
  grounded a p hap := by simp [Store.parent?, Store.record?, hs] at hap
  backed := nofun
  once hi := by simp at hi
  settled y _ := .inr fun a p _ hap => by simp [Store.parent?, Store.record?, hs] at hap
  blamed y hy := by
    obtain ⟨r, hr, -⟩ := hy
    simp [Store.record?, hs] at hr

end Chain

/-- What requests and changes of the registrations lead to from a store without records, while the
store works. -/
def System.Reachable (s : System) : Prop :=
  ∃ w moves, w.store.records = [] ∧ (∀ m ∈ moves, m.healthy) ∧ s = (System.start w).run moves

namespace System.Reachable

variable {s : System}

theorem lawful (h : s.Reachable) : ∀ t ∈ s.threads, Chain.regime.Lawful t := by
  obtain ⟨w, moves, -, -, rfl⟩ := h
  exact Chain.regime.lawful_of_start w moves

/-- The invariant holds in any order of the calls of any requests. -/
theorem sound (h : s.Reachable) : Chain.Sound s.world.store (Chain.regime.phases s) := by
  obtain ⟨w, moves, hw, hm, rfl⟩ := h
  exact Chain.keeps_sound.of_start (Chain.sound_empty hw) fun i reply hi => hm _ hi

theorem run (h : s.Reachable) {moves : List Move} (hm : ∀ m ∈ moves, m.healthy) :
    (s.run moves).Reachable := by
  obtain ⟨w, moves', hw, hm', rfl⟩ := h
  refine ⟨w, moves' ++ moves, hw, ?_, (List.foldl_append ..).symm⟩
  exact fun m hmem => (List.mem_append.1 hmem).elim (hm' m) (hm m)

end System.Reachable

end TokenAuthority

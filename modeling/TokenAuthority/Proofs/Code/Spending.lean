import TokenAuthority.Proofs.Chain.Descent
import TokenAuthority.Proofs.Code.Phase

/-!
# Spending a code

A code is checked on a copy that may be out of date, and a record is stored for it some calls after
it was marked as used. But of all requests that are past the checks one marks the code, since a code
stays used (`Store.keepsCodes_perform`, `Sound.spend`). So of all requests that present a code at
most one succeeds, and at most one record without a parent is stored for it, in whatever order calls
are made and whichever calls of the store fail (`code_redeemed_once`).
-/

namespace TokenAuthority

open Operation

namespace Store

variable {s s' : Store} {v : String} {c : AuthorizationCode}

/-- Each code is still there, and used if it was. -/
def KeepsCodes (s s' : Store) : Prop :=
  ∀ v c, s.code? v = some c →
    ∃ u, s'.code? v = some { c with used := u } ∧ (c.used = true → u = true)

theorem KeepsCodes.of_codes_eq (h : s'.codes = s.codes) : s.KeepsCodes s' := by
  intro v c hc
  refine ⟨c.used, ?_, id⟩
  unfold code? at hc ⊢
  rw [h]
  exact hc

theorem code?_code (h : s.code? v = some c) : c.code = v := by
  simpa using List.find?_some h

def setUsed (c : AuthorizationCode) : AuthorizationCode := { c with used := true }

theorem markCodeUsed_eq (s : Store) (v : String) : s.markCodeUsed v =
    match s.code? v with
    | none => (false, s)
    | some c =>
      if c.used then (false, s)
      else (true, { s with codes := updateFirst (·.code == v) setUsed s.codes }) := rfl

theorem code?_updateFirst (v w : String) :
    ({ s with codes := updateFirst (·.code == v) setUsed s.codes } : Store).code? w =
      (s.code? w).map fun c => if w = v then setUsed c else c :=
  find?_updateFirst (f := setUsed) (fun _ => rfl) v w s.codes

theorem keepsCodes_markCodeUsed (v : String) : s.KeepsCodes (s.markCodeUsed v).2 := by
  rw [markCodeUsed_eq]
  rcases s.code? v with _ | d
  · exact .of_codes_eq rfl
  dsimp only
  split_ifs
  · exact .of_codes_eq rfl
  intro w c hc
  rw [code?_updateFirst, hc, Option.map_some]
  by_cases hw : w = v
  · exact ⟨true, by rw [if_pos hw, setUsed], fun _ => rfl⟩
  · exact ⟨c.used, by rw [if_neg hw], id⟩

theorem keepsCodes_revokeFirst (p : TokenRecord → Bool) : s.KeepsCodes (s.revokeFirst p).2 := by
  unfold revokeFirst
  split
  · exact .of_codes_eq rfl
  · split_ifs <;> exact .of_codes_eq rfl

theorem keepsCodes_createCode (c : AuthorizationCode) : s.KeepsCodes (s.createCode c).2 := by
  unfold createCode
  rcases s.code? c.code with _ | d
  · intro w d hd
    exact ⟨d.used, by simp only [code?, List.find?_append] at hd ⊢; rw [hd]; rfl, id⟩
  · exact .of_codes_eq rfl

/-- No call takes a code out of a store or makes a used one good again. -/
theorem keepsCodes_perform (s : Store) (c : StoreCall) : s.KeepsCodes (s.perform c).2 := by
  cases c with
  | createCode c => exact keepsCodes_createCode c
  | markCodeUsed v => exact keepsCodes_markCodeUsed v
  | createRecord r =>
    show s.KeepsCodes (s.createRecord r).2
    unfold createRecord
    split <;> exact .of_codes_eq rfl
  | markRotated x =>
    show s.KeepsCodes (s.markRotated x).2
    unfold markRotated
    split
    · exact .of_codes_eq rfl
    · split_ifs <;> exact .of_codes_eq rfl
  | revokeRecord id => exact keepsCodes_revokeFirst _
  | revokeByRefreshId x => exact keepsCodes_revokeFirst _
  | _ => exact .of_codes_eq rfl

/-- The one who marks a code has found it unused, and leaves it used. -/
theorem markCodeUsed_of_fst (h : (s.markCodeUsed v).1 = true) :
    ∃ c, s.code? v = some c ∧ c.used = false ∧ (s.markCodeUsed v).2.code? v = some (setUsed c) := by
  rw [markCodeUsed_eq] at h ⊢
  rcases hc : s.code? v with _ | c <;> rw [hc] at h
  · cases h
  dsimp only at h ⊢
  split_ifs at h ⊢ with hu
  refine ⟨c, rfl, by simpa using hu, ?_⟩
  rw [code?_updateFirst, hc, Option.map_some, if_pos rfl]

end Store

namespace Spending

open Phase

namespace Phase

/-- The code that a request has marked as used. -/
def spends? : Phase → Option String
  | spent c | paid c _ => some c.code
  | _ => none

def record? : Phase → Option TokenRecord
  | paid _ r => some r
  | _ => none

end Phase

/-- What a request has read of a code is what the store has, but for the mark of use. -/
def Backed (s : Store) : Phase → Prop
  | checked c => ∃ u, s.code? c.code = some { c with used := u }
  | spent c => s.code? c.code = some { c with used := true }
  | paid c r => s.code? c.code = some { c with used := true } ∧ c.Grants r
  | _ => True

structure Sound (s : Store) (ph : List Phase) : Prop where
  backed : ∀ φ ∈ ph, Backed s φ
  once : ∀ {i j : Nat} {φ ψ : Phase} {v : String}, ph[i]? = some φ → ph[j]? = some ψ →
    φ.spends? = some v → ψ.spends? = some v → i = j

section Steps

variable {s s' : Store} {ph : List Phase} {i : Nat} {φ χ : Phase} {v : String}

theorem code?_of_keepsCodes {c : AuthorizationCode} (h : s.KeepsCodes s')
    (hc : s.code? v = some { c with used := true }) :
    s'.code? v = some { c with used := true } := by
  obtain ⟨u, hu, hused⟩ := h v _ hc
  rw [hu, hused rfl]

theorem Backed.mono (h : s.KeepsCodes s') : ∀ {φ : Phase}, Backed s φ → Backed s' φ
  | checked c, ⟨_, hc⟩ => by
    obtain ⟨u, hu, -⟩ := h c.code _ hc
    exact ⟨u, hu⟩
  | spent _, hc => code?_of_keepsCodes h hc
  | paid _ _, ⟨hc, hr⟩ => ⟨code?_of_keepsCodes h hc, hr⟩
  | apart, _ | ready _, _ | refused _, _ | failed _, _ => trivial

theorem Sound.used_of_spends (h : Sound s ph) (hφ : φ ∈ ph) (hv : φ.spends? = some v) :
    ∃ c, s.code? v = some c ∧ c.used = true := by
  have hb := h.backed φ hφ
  rcases φ with _ | _ | _ | c | ⟨c, r⟩ | _ | _ <;> cases hv
  · exact ⟨_, hb, rfl⟩
  · exact ⟨_, hb.1, rfl⟩

theorem Sound.start (h : Sound s ph) (r : Request) : Sound s (ph ++ [start r]) := by
  have hstart : Backed s (Spending.start r) ∧ (Spending.start r).spends? = none := by
    unfold Spending.start
    rcases r.code? with _ | v <;> exact ⟨trivial, rfl⟩
  refine ⟨List.forall_mem_append.2 ⟨h.backed, by simpa using hstart.1⟩, ?_⟩
  intro i j φ ψ v hi hj hφ hψ
  have hold : ∀ {k : Nat} {χ : Phase}, (ph ++ [Spending.start r])[k]? = some χ →
      χ.spends? = some v → ph[k]? = some χ := by
    rintro k χ hk hχ
    refine getElem?_of_append hk ?_
    rintro rfl
    simp [hstart.2] at hχ
  exact h.once (hold hi hφ) (hold hj hψ) hφ hψ

/-- A request goes on to a phase in which it has spent no code that another has. -/
theorem Sound.move (h : Sound s ph) (hs : s.KeepsCodes s') (hi : ph[i]? = some φ)
    (hb : Backed s' χ)
    (hχ : ∀ v, χ.spends? = some v → φ.spends? = some v ∨ ∀ ψ ∈ ph, ψ.spends? ≠ some v) :
    Sound s' (ph.set i χ) := by
  refine ⟨fun ψ hψ => ?_, ?_⟩
  · rcases List.mem_or_eq_of_mem_set hψ with hψ | rfl
    · exact (h.backed ψ hψ).mono hs
    · exact hb
  intro j k ψ ψ' v hj hk hψ hψ'
  have hold : ∀ {l : Nat} {ω : Phase}, (ph.set i χ)[l]? = some ω → ω.spends? = some v →
      (∃ ω', ph[l]? = some ω' ∧ ω'.spends? = some v) ∨
        l = i ∧ ∀ ω' ∈ ph, ω'.spends? ≠ some v := by
    intro l ω hl hω
    rcases getElem?_set_cases hl with ⟨rfl, rfl⟩ | ⟨-, hl⟩
    · exact (hχ v hω).imp (fun hφ => ⟨φ, hi, hφ⟩) fun hnone => ⟨rfl, hnone⟩
    · exact .inl ⟨ω, hl, hω⟩
  -- a code that is new to `χ` is new to all, so both requests are the one that moves or neither is
  rcases hold hj hψ with ⟨ω, hω, hωv⟩ | ⟨rfl, hnone⟩ <;>
    rcases hold hk hψ' with ⟨ω', hω', hωv'⟩ | ⟨rfl, hnone'⟩
  · exact h.once hω hω' hωv hωv'
  · exact absurd hωv (hnone' ω (List.mem_of_getElem? hω))
  · exact absurd hωv' (hnone ω' (List.mem_of_getElem? hω'))
  · rfl

/-- A call that leaves the phase. -/
theorem Sound.stay (h : Sound s ph) (hs : s.KeepsCodes s') (hi : ph[i]? = some φ) :
    Sound s' (ph.set i φ) :=
  h.move hs hi ((h.backed φ (List.mem_of_getElem? hi)).mono hs) fun _ => .inl

theorem Sound.read (h : Sound s ph) (hi : ph[i]? = some (ready v)) :
    Sound s (ph.set i (afterRead v (.ok (s.code? v)))) := by
  refine h.move (.of_codes_eq rfl) hi ?_ ?_
  · rcases hc : s.code? v with _ | c
    · trivial
    dsimp only [afterRead]
    split_ifs
    · trivial
    · obtain rfl := Store.code?_code hc
      exact ⟨c.used, hc⟩
  · rcases s.code? v with _ | c
    · nofun
    dsimp only [afterRead]
    split_ifs
    · nofun
    · nofun

/-- The request that marks a code is the first to do so. -/
theorem Sound.spend (h : Sound s ph) {c : AuthorizationCode} (hi : ph[i]? = some (checked c)) :
    Sound (s.markCodeUsed c.code).2
      (ph.set i ((checked c).afterMark (.ok (s.markCodeUsed c.code).1))) := by
  have hs := s.keepsCodes_markCodeUsed c.code
  rcases hm : (s.markCodeUsed c.code).1
  · exact h.move hs hi trivial nofun
  obtain ⟨d, hd, hunused, hused⟩ := Store.markCodeUsed_of_fst hm
  obtain ⟨u, hu⟩ := h.backed _ (List.mem_of_getElem? hi)
  obtain rfl : d = { c with used := u } := Option.some.inj (hd.symm.trans hu)
  refine h.move hs hi hused ?_
  rintro _ ⟨rfl⟩
  refine .inr fun ψ hψ hv => ?_
  obtain ⟨d, hd', hd⟩ := h.used_of_spends hψ hv
  obtain rfl := Option.some.inj (hu.symm.trans hd')
  exact Bool.false_ne_true (hunused.symm.trans hd)

/-- The record that is stored for a code is what it stands for. -/
theorem Sound.pay (h : Sound s ph) {c : AuthorizationCode} (hi : ph[i]? = some (spent c))
    {r : TokenRecord} (hr : c.Grants r) (hs : s.KeepsCodes s') (a : Except StoreError Unit) :
    Sound s' (ph.set i ((spent c).afterCreate r a)) := by
  have hb : Backed s' (spent c) := (h.backed _ (List.mem_of_getElem? hi)).mono hs
  rcases a with e | _
  · exact h.move hs hi trivial nofun
  · exact h.move hs hi ⟨hb, hr⟩ fun _ => .inl

theorem Sound.call (h : Sound s ph) (hi : ph[i]? = some φ) (c : StoreCall) (hc : Allows φ c) :
    Sound (s.perform c).2 (ph.set i (φ.next c (s.perform c).1)) := by
  have hs := s.keepsCodes_perform c
  cases c with
  | getCode v =>
    obtain rfl : φ = ready v := hc
    exact h.read hi
  | markCodeUsed v =>
    obtain ⟨c, rfl, rfl⟩ := hc
    exact h.spend hi
  | createRecord r =>
    rcases hc with rfl | ⟨c, rfl, hr⟩
    · exact h.stay hs hi
    · exact h.pay hi hr hs _
  | _ => exact h.stay hs hi

theorem Sound.fail (h : Sound s ph) (hi : ph[i]? = some φ) (e : StoreError) (c : StoreCall)
    (hc : Allows φ c) : Sound s (ph.set i (φ.next c (.error e))) := by
  have hs : s.KeepsCodes s := .of_codes_eq rfl
  cases c with
  | getCode v => exact h.move hs hi trivial nofun
  | markCodeUsed v =>
    obtain ⟨c, rfl, -⟩ := hc
    exact h.move hs hi trivial nofun
  | createRecord r =>
    rcases hc with rfl | ⟨c, rfl, hr⟩
    · exact h.stay hs hi
    · exact h.pay hi hr hs (.error e)
  | _ => exact h.stay hs hi

end Steps

theorem keeps_sound : regime.Keeps (fun w ph => Sound w.store ph) fun _ => True :=
  .ofStore rfl (fun _ _ r h => h.start r)
    (fun _ _ _ _ h => ⟨fun φ hφ => (h.backed φ hφ).mono (.of_codes_eq rfl), h.once⟩)
    (fun _ _ _ _ c h hi hc => h.call hi c hc)
    fun _ e _ _ _ _ _ _ c h hi hc => h.fail hi e c hc

theorem sound_run (w : World) (moves : List Move) :
    Sound ((System.start w).run moves).world.store
      (regime.phases ((System.start w).run moves)) := by
  refine keeps_sound.of_start ⟨?_, ?_⟩ fun _ _ _ => trivial
  · exact fun _ h => absurd h List.not_mem_nil
  · exact fun hi => nofun

end Spending

/-- A call that has found a code. -/
def Event.found (v : String) (c : AuthorizationCode) : Event :=
  ⟨.store (.getCode v), (.ok (some c) : Except StoreError (Option AuthorizationCode))⟩

/-- The record without a parent that a call has put into the store. -/
def Event.roots : Event → List TokenRecord
  | ⟨.store (.createRecord r), .ok _⟩ => if r.parent = none then [r] else []
  | _ => []

/-- The records without a parent that a request has put into the store. -/
def Thread.roots (t : Thread) : List TokenRecord := t.past.flatMap Event.roots

/-- The records without a parent that were ever stored for a code. -/
def System.rootsOf (s : System) (v : String) : List TokenRecord :=
  (s.threads.filter fun t => t.request.code? = some v).flatMap Thread.roots

namespace Spending

open Phase

section Histories

variable {t : Thread} {v : String}

theorem roots_next (φ : Phase) (c : Call) (a : c.Answer) (h : discipline.allows φ c)
    (hφ : φ.key? ≠ none) :
    φ.record?.toList ++ Event.roots ⟨c, a⟩ = (discipline.next φ c a).record?.toList := by
  cases c with
  | store c =>
    cases c with
    | getCode v =>
      obtain rfl : φ = ready v := h
      rcases a with e | _ | c
      · rfl
      · rfl
      show [] = (afterRead v (.ok (some c))).record?.toList
      dsimp only [afterRead]
      split_ifs <;> rfl
    | markCodeUsed v =>
      obtain ⟨c, rfl, -⟩ := h
      rcases a with e | _ | _ <;> rfl
    | createRecord r =>
      rcases h with rfl | ⟨c, rfl, hr⟩
      · exact absurd rfl hφ
      rcases a with e | _
      · rfl
      · exact if_pos hr.parent
    | _ => exact List.append_nil _
  | _ => exact List.append_nil _

/-- The phase of a request tells which records it has stored for a code. -/
theorem roots_past : ∀ {past : List Event} {φ : Phase}, discipline.Lawful φ past →
    φ.key? ≠ none →
    φ.record?.toList ++ past.flatMap Event.roots = (discipline.phase φ past).record?.toList
  | [], _, _, _ => List.append_nil _
  | ⟨c, a⟩ :: past, φ, ⟨hc, ha, h⟩, hφ => by
    have ih := roots_past h (by rwa [key?_next φ c a hc ha])
    rw [List.flatMap_cons, ← List.append_assoc, roots_next φ c a hc hφ]
    exact ih

theorem roots_eq (h : regime.Lawful t) (hv : t.request.code? = some v) :
    t.roots = (regime.phase t).record?.toList := by
  have hnone : (start t.request).record? = none := by
    rw [start, hv]
    rfl
  have hkey : (start t.request).key? ≠ none := by
    rw [key?_start, hv]
    nofun
  calc
    t.roots = (start t.request).record?.toList ++ t.roots := by rw [hnone]; rfl
    _ = (regime.phase t).record?.toList := roots_past h.1 hkey

theorem paid_of_root (h : regime.Lawful t) (hv : t.request.code? = some v) {r : TokenRecord}
    (hr : r ∈ t.roots) : ∃ c, regime.phase t = paid c r ∧ c.code = v := by
  rw [roots_eq h hv] at hr
  have hkey := (key?_phase h).trans hv
  rcases hp : regime.phase t <;> rw [hp] at hr hkey
  case paid c r' =>
    obtain rfl : r = r' := List.mem_singleton.1 hr
    exact ⟨c, rfl, Option.some.inj hkey⟩
  all_goals exact absurd hr List.not_mem_nil

theorem spends_of_succeeded (h : regime.Lawful t) (hv : t.request.code? = some v)
    (ht : t.succeeded) : (regime.phase t).spends? = some v := by
  obtain ⟨o, ho, hs⟩ := t.exists_done_of_succeeded ht
  have hfits := h.fits ho
  have hkey := (key?_phase h).trans hv
  rcases hp : regime.phase t <;> rw [hp] at hfits hkey
  case spent | paid => exact hkey
  case ready | checked | failed => exact absurd hs hfits
  case refused => exact absurd hfits.choose_spec (Request.not_fails_of_succeeds hs)
  case apart => cases hkey

theorem refused_of_found {c : AuthorizationCode} (hc : c.used = true) :
    ∀ {past : List Event} {φ : Phase}, discipline.Lawful φ past → .found v c ∈ past →
      discipline.phase φ past = refused v
  | [], _, _, hmem => absurd hmem List.not_mem_nil
  | e :: past, φ, ⟨hallows, _, h⟩, hmem => by
    rcases List.mem_cons.1 hmem with rfl | hmem
    · obtain rfl : φ = ready v := hallows
      have hnext : afterRead v (.ok (some c)) = refused v := if_pos hc
      refine h.keeps (P := fun φ => φ = refused v) ?_ hnext
      rintro _ c a rfl hc' _
      exact next_refused v c a hc'
    · have ih := refused_of_found hc h hmem
      exact ih

/-- A request that has been refused ends so, whatever happens. -/
theorem fails_of_refused (h : regime.Lawful t) (hv : regime.phase t = refused v) (w : World)
    (replies : Nat → Reply) :
    ∃ m, t.request.Fails (.invalidGrant m) (World.complete t.rest w replies).1 := by
  have hstep : ∀ (w : World) φ c reply, φ = refused v → discipline.allows φ c → True →
      discipline.next φ c (w.perform reply c).1 = refused v := by
    rintro w _ c reply rfl hc -
    exact next_refused v c _ hc
  obtain ⟨_, hfits, rfl⟩ : ∃ φ, Fits t.request φ (World.complete t.rest w replies).1 ∧
      φ = refused v :=
    h.2.complete (J := fun _ φ => φ = refused v) (G := fun _ => True) hstep hv fun _ => trivial
  exact hfits

end Histories

section Once

variable {w : World} {moves : List Move} {i j : Nat} {t u : Thread} {v : String}

theorem eq_of_spends (hi : ((System.start w).run moves).threads[i]? = some t)
    (hj : ((System.start w).run moves).threads[j]? = some u)
    (ht : (regime.phase t).spends? = some v) (hu : (regime.phase u).spends? = some v) : i = j := by
  refine (sound_run w moves).once ?_ ?_ ht hu
  · exact regime.getElem?_phases hi
  · exact regime.getElem?_phases hj

theorem length_flatMap_le_one {α β : Type} {f : α → List β} : ∀ {l : List α},
    (∀ a ∈ l, (f a).length ≤ 1) → l.Pairwise (fun a b => f a = [] ∨ f b = []) →
      (l.flatMap f).length ≤ 1
  | [], _, _ => Nat.zero_le 1
  | a :: l, hone, hl => by
    obtain ⟨ha, hl⟩ := List.pairwise_cons.1 hl
    rw [List.flatMap_cons]
    by_cases hnil : f a = []
    · rw [hnil, List.nil_append]
      exact length_flatMap_le_one (fun b hb => hone b (List.mem_cons_of_mem a hb)) hl
    · have hrest : l.flatMap f = [] :=
        List.flatMap_eq_nil_iff.2 fun b hb => (ha b hb).resolve_left hnil
      rw [hrest, List.append_nil]
      exact hone a List.mem_cons_self

theorem length_rootsOf_le_one (w : World) (moves : List Move) (v : String) :
    (((System.start w).run moves).rootsOf v).length ≤ 1 := by
  have hlaw := regime.lawful_of_start w moves
  refine length_flatMap_le_one (fun t ht => ?_)
    (List.pairwise_filter.2 (List.pairwise_iff_getElem.2 ?_))
  · obtain ⟨ht, hv⟩ := List.mem_filter.1 ht
    rw [roots_eq (hlaw t ht) (of_decide_eq_true hv)]
    exact Option.length_toList_le
  · intro i j hi hj hij hv hv'
    by_cases hri : ((System.start w).run moves).threads[i].roots = []
    · exact .inl hri
    by_cases hrj : ((System.start w).run moves).threads[j].roots = []
    · exact .inr hrj
    obtain ⟨r, hr⟩ := List.exists_mem_of_ne_nil _ hri
    obtain ⟨r', hr'⟩ := List.exists_mem_of_ne_nil _ hrj
    obtain ⟨c, hc, hcv⟩ :=
      paid_of_root (hlaw _ (List.getElem_mem hi)) (of_decide_eq_true hv) hr
    obtain ⟨c', hc', hcv'⟩ :=
      paid_of_root (hlaw _ (List.getElem_mem hj)) (of_decide_eq_true hv') hr'
    have := eq_of_spends (v := v) (List.getElem?_eq_getElem hi) (List.getElem?_eq_getElem hj)
      (by rw [hc]; exact congrArg some hcv) (by rw [hc']; exact congrArg some hcv')
    omega

end Once

end Spending

/-- A code is good for one set of tokens. -/
structure System.RedeemsOnce (s : System) (v : String) : Prop where
  /-- At most one request succeeds that presents it. -/
  winner : ∀ (i j : Nat) (t u : Thread), s.threads[i]? = some t → s.threads[j]? = some u →
    t.request.code? = some v → u.request.code? = some v → t.succeeded → u.succeeded → i = j
  root : (s.rootsOf v).length ≤ 1
  grants : ∀ r ∈ s.rootsOf v, ∃ c, s.world.store.code? v = some c ∧ c.Grants r
  /-- A request that finds it used is refused, whatever the calls that follow are answered. -/
  refused : ∀ t ∈ s.threads, ∀ c, .found v c ∈ t.past → c.used = true →
    ∀ (w : World) (replies : Nat → Reply),
      ∃ m, t.request.Fails (.invalidGrant m) (World.complete t.rest w replies).1

/-- Each code is good for one set of tokens, whatever the order of the calls of any requests and
whichever of them the store fails in. -/
theorem code_redeemed_once (w : World) (moves : List Move) (v : String) :
    ((System.start w).run moves).RedeemsOnce v where
  winner i j t u hi hj htv huv ht hu := by
    have hlaw := Spending.regime.lawful_of_start w moves
    exact Spending.eq_of_spends hi hj
      (Spending.spends_of_succeeded (hlaw t (List.mem_of_getElem? hi)) htv ht)
      (Spending.spends_of_succeeded (hlaw u (List.mem_of_getElem? hj)) huv hu)
  root := Spending.length_rootsOf_le_one w moves v
  grants r hr := by
    obtain ⟨t, hmem, hr⟩ := List.mem_flatMap.1 hr
    obtain ⟨ht, hv⟩ := List.mem_filter.1 hmem
    obtain ⟨c, hc, rfl⟩ :=
      Spending.paid_of_root (Spending.regime.lawful_of_start w moves t ht) (of_decide_eq_true hv) hr
    have hb := (Spending.sound_run w moves).backed (.paid c r) (hc ▸ List.mem_map_of_mem ht)
    exact ⟨_, hb.1, hb.2.parent, hb.2.clientId, hb.2.userId, hb.2.scope⟩
  refused t ht c hc hused w' replies := by
    have hlaw := Spending.regime.lawful_of_start w moves t ht
    exact Spending.fails_of_refused hlaw (Spending.refused_of_found hused hlaw.1 hc) w' replies

/-- Of two requests that have read a code before it was used, one gets tokens for it; a third one
comes too late. -/
theorem code_redeemed_once_race :
    Sample.redeemed.threads.map Thread.succeeded = [true, false, true, false] ∧
    (Sample.redeemed.rootsOf (Sample.code 1)).map (fun r => (r.clientId, r.userId, r.scope)) =
      [("c1", some "u1", "openid")] ∧
    Sample.redeemed.threads[3]?.bind Thread.error? =
      some (.invalidGrant "authorization code already used") ∧
    Sample.redeemed.RedeemsOnce (Sample.code 1) :=
  ⟨by decide +kernel, by decide +kernel, by decide +kernel, code_redeemed_once _ _ _⟩

end TokenAuthority

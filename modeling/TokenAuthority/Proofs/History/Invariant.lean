import TokenAuthority.Proofs.Chain.Growth
import TokenAuthority.Proofs.Code.Spending
import TokenAuthority.Proofs.History.Phase

/-!
# What requests have left

What a request has found in the store or put there can be seen in it for ever, but for the marks
(`Store.Shows`). No two requests have put a code or a record of the same key there, and a code that
a request has created is used only if a request has marked it (`Sound`, `sound_run`). From a store
without codes and records, all that there is was put there by some request, and each record goes
back to one without a parent for the same client, user and scope (`Accounted`, `accounted_run`).
-/

namespace TokenAuthority

open Operation StoreEvent

/-- What codes and records are found by. -/
inductive Key where
  | code (v : String)
  | record (x : String)

/-- What a call has created. -/
def StoreEvent.key? : StoreEvent → Option Key
  | ⟨.createCode c, .ok _⟩ => some (.code c.code)
  | ⟨.createRecord r, .ok _⟩ => some (.record r.refreshId)
  | _ => none

theorem TokenRecord.Grows.trans {r r' r'' : TokenRecord} (h : r.Grows r') (h' : r'.Grows r'') :
    r.Grows r'' := by
  refine ⟨?_, fun hr => h'.rotated (h.rotated hr), fun hr => h'.revoked (h.revoked hr)⟩
  rw [h'.same, h.same]

namespace Store

theorem Extends.trans {s s' s'' : Store} (h : s.Extends s') (h' : s'.Extends s'') :
    s.Extends s'' := by
  intro x r hr
  obtain ⟨r', hr', hgrows⟩ := h x r hr
  obtain ⟨r'', hr'', hgrows'⟩ := h' x r' hr'
  exact ⟨r'', hr'', hgrows.trans hgrows'⟩

variable {s s' : Store} {v : String}

def Has (s : Store) : Key → Prop
  | .code v => ∃ c, s.code? v = some c
  | .record x => s.Known x

/-- What a call has told of the store is still so, but for the marks. -/
def Shows (s : Store) : StoreEvent → Prop
  | ⟨.createCode c, .ok _⟩ | ⟨.getCode _, .ok (some c)⟩ =>
    ∃ u, s.code? c.code = some { c with used := u }
  | ⟨.createRecord r, .ok _⟩ | ⟨.getRecord _, .ok (some r)⟩ =>
    ∃ r', s.record? r.refreshId = some r' ∧ r.Grows r'
  | _ => True

section Shows

theorem KeepsCodes.shows {c : AuthorizationCode} (h : s.KeepsCodes s')
    (hc : ∃ u, s.code? v = some { c with used := u }) :
    ∃ u, s'.code? v = some { c with used := u } := by
  obtain ⟨u, hu⟩ := hc
  obtain ⟨u', hu', -⟩ := h v _ hu
  exact ⟨u', hu'⟩

theorem Extends.shows {r : TokenRecord} {x : String} (h : s.Extends s')
    (hr : ∃ r', s.record? x = some r' ∧ r.Grows r') :
    ∃ r', s'.record? x = some r' ∧ r.Grows r' := by
  obtain ⟨r', hr', hg⟩ := hr
  obtain ⟨r'', hr'', hg'⟩ := h x r' hr'
  exact ⟨r'', hr'', hg.trans hg'⟩

theorem Shows.mono (hcodes : s.KeepsCodes s') (hrecords : s.Extends s') :
    ∀ {e : StoreEvent}, s.Shows e → s'.Shows e
  | ⟨.createCode _, .ok _⟩, h | ⟨.getCode _, .ok (some _)⟩, h => hcodes.shows h
  | ⟨.createRecord _, .ok _⟩, h | ⟨.getRecord _, .ok (some _)⟩, h => hrecords.shows h
  | ⟨.createCode _, .error _⟩, _ | ⟨.getCode _, .error _⟩, _ | ⟨.getCode _, .ok none⟩, _
  | ⟨.createRecord _, .error _⟩, _ | ⟨.getRecord _, .error _⟩, _ | ⟨.getRecord _, .ok none⟩, _
  | ⟨.getClient _, _⟩, _ | ⟨.getUser _, _⟩, _ | ⟨.getUserByEmail _, _⟩, _
  | ⟨.markCodeUsed _, _⟩, _ | ⟨.markRotated _, _⟩, _ | ⟨.revokeRecord _, _⟩, _
  | ⟨.revokeByRefreshId _, _⟩, _ | ⟨.revokeChain _, _⟩, _ => trivial

theorem createCode_of_none {c : AuthorizationCode} (h : s.code? c.code = none) :
    s.createCode c = (.ok (), { s with codes := s.codes ++ [c] }) := by
  unfold createCode
  rw [h]

theorem code?_append {c : AuthorizationCode} (h : s.code? c.code = none) :
    ({ s with codes := s.codes ++ [c] } : Store).code? v =
      if v = c.code then some c else s.code? v := by
  have happend : ({ s with codes := s.codes ++ [c] } : Store).code? v =
      (s.code? v).or ([c].find? (·.code == v)) := List.find?_append
  rw [happend]
  split_ifs with hv
  · subst hv
    simp [h]
  · have hne : [c].find? (·.code == v) = none := by simpa using fun he => hv he.symm
    simp [hne]

/-- What a call tells of the store is so. -/
theorem shows_perform (s : Store) (c : StoreCall) : (s.perform c).2.Shows ⟨c, (s.perform c).1⟩ := by
  cases c with
  | createCode c =>
    show (s.createCode c).2.Shows ⟨.createCode c, (s.createCode c).1⟩
    rcases hc : s.code? c.code with _ | d
    · rw [createCode_of_none hc]
      exact ⟨c.used, by rw [code?_append hc, if_pos rfl]⟩
    · unfold createCode
      rw [hc]
      trivial
  | createRecord r =>
    show (s.createRecord r).2.Shows ⟨.createRecord r, (s.createRecord r).1⟩
    by_cases hr : s.Known r.refreshId
    · rw [createRecord_of_known hr]
      trivial
    · rw [createRecord_of_not_known hr]
      exact ⟨r, by rw [record?_add hr, if_pos rfl], .refl r⟩
  | getCode v =>
    show s.Shows ⟨.getCode v, .ok (s.code? v)⟩
    rcases hc : s.code? v with _ | c
    · trivial
    · obtain rfl := code?_code hc
      exact ⟨c.used, hc⟩
  | getRecord x =>
    show s.Shows ⟨.getRecord x, .ok (s.record? x)⟩
    rcases hr : s.record? x with _ | r
    · trivial
    · exact ⟨r, by rw [record?_refreshId hr, hr], .refl r⟩
  | _ => trivial

end Shows

section Keys

theorem links_revokeFirst (p : TokenRecord → Bool) : (s.revokeFirst p).2.links = s.links := by
  have hupdate : ({ s with records := updateFirst p setRevoked s.records } : Store).links =
      s.links := map_updateFirst (g := fun r : TokenRecord => (r.refreshId, r.parent))
    (f := setRevoked) (fun _ => rfl) p s.records
  unfold revokeFirst
  split
  · rfl
  · split_ifs
    · rfl
    · exact hupdate

theorem codes_revokeFirst (p : TokenRecord → Bool) : (s.revokeFirst p).2.codes = s.codes := by
  unfold revokeFirst
  split
  · rfl
  · split_ifs <;> rfl

/-- A call either leaves a code, or creates it, or marks it. -/
theorem code?_perform (s : Store) (c : StoreCall) (v : String) :
    (s.perform c).2.code? v = s.code? v ∨
    (∃ d, (⟨c, (s.perform c).1⟩ : StoreEvent) = created d ∧ d.code = v ∧
      (s.perform c).2.code? v = some d) ∨
    ((⟨c, (s.perform c).1⟩ : StoreEvent) = marked v ∧
      (s.perform c).2.code? v = (s.code? v).map setUsed) := by
  have hsame : ∀ {s' : Store}, s'.codes = s.codes → s'.code? v = s.code? v := by
    intro s' h
    unfold code?
    rw [h]
  cases c with
  | createCode d =>
    have hcall : s.perform (.createCode d) = s.createCode d := rfl
    rw [hcall]
    rcases hd : s.code? d.code with _ | d'
    · rw [createCode_of_none hd, code?_append hd]
      split_ifs with hv
      · exact .inr (.inl ⟨d, rfl, hv.symm, rfl⟩)
      · exact .inl rfl
    · unfold createCode
      rw [hd]
      exact .inl rfl
  | markCodeUsed w =>
    have hcall : s.perform (.markCodeUsed w) = (.ok (s.markCodeUsed w).1, (s.markCodeUsed w).2) :=
      rfl
    rw [hcall, markCodeUsed_eq]
    rcases hd : s.code? w with _ | d
    · exact .inl rfl
    dsimp only
    split_ifs
    · exact .inl rfl
    rw [code?_updateFirst]
    by_cases hv : v = w
    · have hmap : (fun c => if v = w then setUsed c else c) = setUsed :=
        funext fun c => if_pos hv
      rw [hmap]
      exact .inr (.inr ⟨by rw [hv]; rfl, rfl⟩)
    · have hmap : (fun c => if v = w then setUsed c else c) = id := funext fun c => if_neg hv
      rw [hmap, Option.map_id]
      exact .inl rfl
  | revokeRecord id => exact .inl (hsame (codes_revokeFirst _))
  | revokeByRefreshId x => exact .inl (hsame (codes_revokeFirst _))
  | createRecord r =>
    refine .inl (hsame ?_)
    show (s.createRecord r).2.codes = s.codes
    unfold createRecord
    split <;> rfl
  | markRotated x =>
    refine .inl (hsame ?_)
    show (s.markRotated x).2.codes = s.codes
    unfold markRotated
    split
    · rfl
    · split_ifs <;> rfl
  | _ => exact .inl (hsame rfl)

/-- A call either leaves what records there are, or adds one. -/
theorem links_perform (s : Store) (c : StoreCall) :
    (s.perform c).2.links = s.links ∨
    ∃ r, (⟨c, (s.perform c).1⟩ : StoreEvent) = stored r ∧ ¬ s.Known r.refreshId ∧
      (s.perform c).2 = s.add r := by
  cases c with
  | createRecord r =>
    have hcall : s.perform (.createRecord r) = s.createRecord r := rfl
    rw [hcall]
    by_cases hr : s.Known r.refreshId
    · rw [createRecord_of_known hr]
      exact .inl rfl
    · rw [createRecord_of_not_known hr]
      exact .inr ⟨r, rfl, hr, rfl⟩
  | markRotated x => exact .inl links_markRotated
  | revokeRecord id => exact .inl (links_revokeFirst _)
  | revokeByRefreshId x => exact .inl (links_revokeFirst _)
  | revokeChain x => exact .inl links_revokeChain
  | createCode c =>
    refine .inl ?_
    show (s.createCode c).2.links = s.links
    unfold createCode
    split <;> rfl
  | markCodeUsed v =>
    refine .inl ?_
    show (s.markCodeUsed v).2.links = s.links
    rw [markCodeUsed_eq]
    split
    · rfl
    · split_ifs <;> rfl
  | _ => exact .inl rfl

/-- A record that is there after a call was there before it, with fewer marks perhaps, or has been
stored by it. -/
theorem record?_perform (s : Store) (c : StoreCall) {x : String} {r : TokenRecord}
    (hr : (s.perform c).2.record? x = some r) :
    (∃ r₀, s.record? x = some r₀ ∧ r₀.Grows r) ∨
      (⟨c, (s.perform c).1⟩ : StoreEvent) = stored r ∧ ¬ s.Known x ∧ x = r.refreshId := by
  have hold : s.Known x → ∃ r₀, s.record? x = some r₀ ∧ r₀.Grows r := by
    rintro ⟨r₀, hr₀⟩
    obtain ⟨r', hr', hgrows⟩ := s.extends_perform c x r₀ hr₀
    obtain rfl : r' = r := Option.some.inj (hr'.symm.trans hr)
    exact ⟨r₀, hr₀, hgrows⟩
  rcases s.links_perform c with hsame | ⟨new, he, hnew, hs⟩
  · exact .inl (hold (known_iff_mem_links.2 (hsame ▸ known_iff_mem_links.1 ⟨r, hr⟩)))
  by_cases hx : x = new.refreshId
  · subst hx
    rw [hs, record?_add hnew, if_pos rfl, Option.some.injEq] at hr
    subst hr
    exact .inr ⟨he, hnew, rfl⟩
  · rw [hs, record?_add hnew, if_neg hx] at hr
    exact .inl (hold ⟨r, hr⟩)

/-- A call that creates something finds its key free. -/
theorem not_has_of_key? {c : StoreCall} {k : Key}
    (h : StoreEvent.key? ⟨c, (s.perform c).1⟩ = some k) : ¬ s.Has k := by
  cases c with
  | createCode c =>
    change StoreEvent.key? ⟨.createCode c, (s.createCode c).1⟩ = some k at h
    unfold createCode at h
    split at h <;> cases h
    rintro ⟨d, hd⟩
    cases hd.symm.trans ‹s.code? c.code = none›
  | createRecord r =>
    change StoreEvent.key? ⟨.createRecord r, (s.createRecord r).1⟩ = some k at h
    unfold createRecord at h
    split at h <;> cases h
    rintro ⟨d, hd⟩
    cases hd.symm.trans ‹s.record? r.refreshId = none›
  | _ => cases h

/-- A call leaves a code that is there, or marks it as used. -/
theorem code?_perform_of_some (c : StoreCall) {d : AuthorizationCode} (hd : s.code? v = some d) :
    (s.perform c).2.code? v = some d ∨ (⟨c, (s.perform c).1⟩ : StoreEvent) = marked v ∧
      (s.perform c).2.code? v = some { d with used := true } := by
  rcases s.code?_perform c v with hsame | ⟨d', he, rfl, -⟩ | ⟨he, hmap⟩
  · exact .inl (hsame.trans hd)
  · refine absurd ⟨d, hd⟩ (not_has_of_key? (c := c) (k := .code d'.code) ?_)
    rw [he]
    rfl
  · rw [hd] at hmap
    exact .inr ⟨he, hmap⟩

/-- What is there after a call was there before it or has been created by it. -/
theorem has_perform {c : StoreCall} {k : Key} (h : (s.perform c).2.Has k) :
    s.Has k ∨ StoreEvent.key? ⟨c, (s.perform c).1⟩ = some k := by
  cases k with
  | code v =>
    obtain ⟨d, hd⟩ := h
    rcases s.code?_perform c v with hsame | ⟨d', he, rfl, -⟩ | ⟨-, hmap⟩
    · exact .inl ⟨d, hsame.symm.trans hd⟩
    · exact .inr (by rw [he]; rfl)
    · obtain ⟨d', hd', -⟩ := Option.map_eq_some_iff.1 (hmap.symm.trans hd)
      exact .inl ⟨d', hd'⟩
  | record x =>
    rcases s.links_perform c with hsame | ⟨r, he, hr, hs⟩
    · exact .inl (known_iff_mem_links.2 (hsame ▸ known_iff_mem_links.1 h))
    · rw [he]
      change (s.perform c).2.Known x at h
      rw [hs, known_add hr] at h
      exact h.symm.imp_right fun hx => by rw [hx]; rfl

theorem Has.mono (hcodes : s.KeepsCodes s') (hrecords : s.Extends s') :
    ∀ {k : Key}, s.Has k → s'.Has k
  | .code v, ⟨_, hd⟩ => by
    obtain ⟨u, hu, -⟩ := hcodes v _ hd
    exact ⟨_, hu⟩
  | .record _, hx => hrecords.known hx

/-- What has been created is there. -/
theorem Shows.has {e : StoreEvent} {k : Key} (h : s.Shows e) (he : e.key? = some k) : s.Has k := by
  obtain ⟨c, a⟩ := e
  cases c with
  | createCode c =>
    rcases a with e | _
    · cases he
    · obtain ⟨u, hu⟩ := h
      obtain rfl : Key.code c.code = k := Option.some.inj he
      exact ⟨_, hu⟩
  | createRecord r =>
    rcases a with e | _
    · cases he
    · obtain ⟨r', hr', -⟩ := h
      obtain rfl : Key.record r.refreshId = k := Option.some.inj he
      exact ⟨r', hr'⟩
  | _ => cases he

end Keys

end Store

/-- Whom a record is for, and what for. -/
def TokenRecord.grant (r : TokenRecord) : String × Option String × String :=
  (r.clientId, r.userId, r.scope)

theorem TokenRecord.Grows.grant {r r' : TokenRecord} (h : r.Grows r') : r'.grant = r.grant := by
  rw [h.same]
  rfl

theorem TokenRecord.Grows.parent {r r' : TokenRecord} (h : r.Grows r') : r'.parent = r.parent := by
  rw [h.same]

theorem TokenRecord.Continues.grant {r r' : TokenRecord} (h : r.Continues r') :
    r.grant = r'.grant := by
  simp only [TokenRecord.grant, h.clientId, h.userId, h.scope]

namespace Store

variable {s s' : Store}

/-- Every record goes back to one without a parent. -/
def Rooted (s : Store) : Prop :=
  ∀ x r, s.record? x = some r → ∃ y root, s.Descends x y ∧ s.record? y = some root ∧
    root.parent = none ∧ r.grant = root.grant

theorem Rooted.mono (h : s.Rooted) (hext : s.Extends s') {x : String} {r : TokenRecord}
    (hx : s.Known x) (hr : s'.record? x = some r) : ∃ y root, s'.Descends x y ∧
      s'.record? y = some root ∧ root.parent = none ∧ r.grant = root.grant := by
  obtain ⟨r₀, hr₀⟩ := hx
  obtain ⟨y, root, hxy, hy, hnone, hgrant⟩ := h x r₀ hr₀
  obtain ⟨r', hr', hgrows⟩ := hext x r₀ hr₀
  obtain rfl : r' = r := Option.some.inj (hr'.symm.trans hr)
  obtain ⟨root', hroot', hgrows'⟩ := hext y root hy
  exact ⟨y, root', hext.descends hxy, hroot', hgrows'.parent.trans hnone,
    hgrows.grant.trans (hgrant.trans hgrows'.grant.symm)⟩

/-- A record that is added has no parent, or continues one that is there. -/
theorem Rooted.perform (h : s.Rooted) (c : StoreCall)
    (hadd : ∀ r, (⟨c, (s.perform c).1⟩ : StoreEvent) = stored r → r.parent = none ∨
      ∃ p r', r.parent = some p ∧ s.record? p = some r' ∧ r.grant = r'.grant) :
    (s.perform c).2.Rooted := by
  have hext := s.extends_perform c
  intro x r hr
  rcases s.links_perform c with hsame | ⟨new, he, hnew, hs⟩
  · exact h.mono hext (known_iff_mem_links.2 (hsame ▸ known_iff_mem_links.1 ⟨r, hr⟩)) hr
  by_cases hx : x = new.refreshId
  · have hr' := hr
    rw [hs, record?_add hnew, if_pos hx, Option.some.injEq] at hr'
    subst hr'
    rcases hadd new he with hnone | ⟨p, r', hp, hr', hgrant⟩
    · exact ⟨x, new, .refl, hr, hnone, rfl⟩
    · obtain ⟨r'', hr'', hgrows⟩ := hext p r' hr'
      obtain ⟨y, root, hpy, hy, hnone, hroot⟩ := h.mono hext ⟨r', hr'⟩ hr''
      refine ⟨y, root, .head ?_ hpy, hy, hnone, hgrant.trans (hgrows.grant.symm.trans hroot)⟩
      exact Option.bind_eq_some_iff.2 ⟨new, hr, hp⟩
  · rw [hs, record?_add hnew, if_neg hx] at hr
    exact h.mono hext ⟨r, hr⟩ (by rw [hs, record?_add hnew, if_neg hx, hr])

end Store

/-- The calls of the store that a request has made. -/
def Thread.calls (t : Thread) : List StoreEvent := t.past.filterMap Event.store?

namespace History

theorem phase_append_past (A : Request → List StoreEvent → StoreCall → Prop) :
    ∀ (past : List Event) (φ : Progress),
      (Progress.asking A).phase φ past = ⟨φ.request, φ.past ++ past.filterMap Event.store?⟩
  | [], φ => by simp [Discipline.phase]
  | ⟨c, a⟩ :: past, φ => by
    have hrest := phase_append_past A past ((Progress.asking A).next φ c a)
    cases c with
    | store c =>
      refine hrest.trans ?_
      simp [Progress.asking, Discipline.ofStore, Progress.next, Event.store?]
    | _ => exact hrest

theorem phase_eq (t : Thread) : regime.phase t = ⟨t.request, t.calls⟩ :=
  phase_append_past Permits t.past ⟨t.request, []⟩

/-- Each call that a request has made rests on those before it. -/
theorem permits_of_mem {t : Thread} (h : regime.Lawful t) {e : StoreEvent} (he : e ∈ t.calls) :
    Permits t.request t.calls e.1 := by
  have hnext : ∀ (φ : Progress) c a, (φ.request = t.request ∧
      ∀ e ∈ φ.past, Permits t.request φ.past e.1) → discipline.allows φ c → c.Credible a →
      (discipline.next φ c a).request = t.request ∧
        ∀ e ∈ (discipline.next φ c a).past, Permits t.request (discipline.next φ c a).past e.1 := by
    rintro φ c a ⟨hreq, hold⟩ hc -
    cases c with
    | store c =>
      refine ⟨hreq, fun e he => ?_⟩
      rcases List.mem_append.1 he with he | he
      · exact (hold e he).mono (List.subset_append_left _ _)
      · rw [List.mem_singleton.1 he, ← hreq]
        exact Permits.mono (List.subset_append_left _ _) hc
    | _ => exact ⟨hreq, hold⟩
  have hpast : (regime.phase t).request = t.request ∧
      ∀ e ∈ (regime.phase t).past, Permits t.request (regime.phase t).past e.1 :=
    h.1.keeps hnext ⟨rfl, fun _ he => absurd he List.not_mem_nil⟩
  rw [phase_eq] at hpast
  exact hpast.2 e he

structure Sound (s : Store) (ph : List Progress) : Prop where
  shows : ∀ φ ∈ ph, ∀ e ∈ φ.past, s.Shows e
  once : ∀ {i j : Nat} {φ ψ : Progress} {e e' : StoreEvent} {k : Key}, ph[i]? = some φ →
    ph[j]? = some ψ → e ∈ φ.past → e' ∈ ψ.past → e.key? = some k → e'.key? = some k → i = j
  used : ∀ φ ∈ ph, ∀ c, created c ∈ φ.past → ∀ d, s.code? c.code = some d → d.used = true →
    ∃ ψ ∈ ph, marked c.code ∈ ψ.past

/-- All that there is was put there by a request. -/
def Accounted (s : Store) (ph : List Progress) : Prop :=
  ∀ k, s.Has k → ∃ φ ∈ ph, ∃ e ∈ φ.past, e.key? = some k

section Steps

variable {s s' : Store} {ph : List Progress} {i j : Nat} {φ ψ : Progress} {c : StoreCall}
  {a : Except StoreError c.Result} {e : StoreEvent}

/-- What a request has done after a call it had done before, but for this call. -/
theorem past_of_set (hi : ph[i]? = some φ) (hj : (ph.set i (φ.next c a))[j]? = some ψ)
    (he : e ∈ ψ.past) : (∃ ψ', ph[j]? = some ψ' ∧ e ∈ ψ'.past) ∨ i = j ∧ e = ⟨c, a⟩ := by
  rcases getElem?_set_cases hj with ⟨rfl, rfl⟩ | ⟨-, hj⟩
  · rcases List.mem_append.1 he with he | he
    · exact .inl ⟨φ, hi, he⟩
    · exact .inr ⟨rfl, List.mem_singleton.1 he⟩
  · exact .inl ⟨ψ, hj, he⟩

theorem mem_past_of_set (hi : ph[i]? = some φ) (hψ : ψ ∈ ph.set i (φ.next c a))
    (he : e ∈ ψ.past) : (∃ ψ' ∈ ph, e ∈ ψ'.past) ∨ e = ⟨c, a⟩ := by
  obtain ⟨j, hj⟩ := List.mem_iff_getElem?.1 hψ
  refine (past_of_set hi hj he).imp ?_ And.right
  exact fun ⟨ψ', hj, he⟩ => ⟨ψ', List.mem_of_getElem? hj, he⟩

theorem exists_mem_set (hi : ph[i]? = some φ) (hψ : ψ ∈ ph) :
    ∃ ψ' ∈ ph.set i (φ.next c a), ψ.past ⊆ ψ'.past := by
  by_cases h : ψ = φ
  · exact ⟨φ.next c a, mem_set_self hi, h ▸ (φ.later_next c a).past⟩
  · exact ⟨ψ, mem_set_of_mem hi hψ h, List.Subset.refl _⟩

theorem Sound.start (h : Sound s ph) (q : Request) : Sound s (ph ++ [⟨q, []⟩]) := by
  have hmem : ∀ {ψ : Progress} {e}, ψ ∈ ph ++ [⟨q, []⟩] → e ∈ ψ.past → ψ ∈ ph := by
    intro ψ e hψ he
    rcases List.mem_append.1 hψ with hψ | hψ
    · exact hψ
    · rw [List.mem_singleton.1 hψ] at he
      exact absurd he List.not_mem_nil
  have hget : ∀ {j : Nat} {ψ : Progress} {e}, (ph ++ [⟨q, []⟩])[j]? = some ψ → e ∈ ψ.past →
      ph[j]? = some ψ := by
    intro j ψ e hj he
    refine getElem?_of_append hj ?_
    rintro rfl
    exact absurd he List.not_mem_nil
  refine ⟨fun φ hφ e he => h.shows φ (hmem hφ he) e he, fun hi hj he he' => ?_, ?_⟩
  · exact h.once (hget hi he) (hget hj he') he he'
  · intro φ hφ c hc d hd hused
    obtain ⟨ψ, hψ, hm⟩ := h.used φ (hmem hφ hc) c hc d hd hused
    exact ⟨ψ, List.mem_append_left _ hψ, hm⟩

/-- A call that creates nothing that was there, and makes no code used but by marking it. -/
theorem Sound.step (h : Sound s ph) (hi : ph[i]? = some φ) (hcodes : s.KeepsCodes s')
    (hrecords : s.Extends s') (hshows : s'.Shows ⟨c, a⟩)
    (hfree : ∀ k, StoreEvent.key? ⟨c, a⟩ = some k → ¬ s.Has k)
    (hused : ∀ v d, s'.code? v = some d → d.used = true →
      (∃ d', s.code? v = some d' ∧ d'.used = true) ∨ (⟨c, a⟩ : StoreEvent) = marked v) :
    Sound s' (ph.set i (φ.next c a)) := by
  have hold : ∀ {j : Nat} {ψ : Progress} {e : StoreEvent} {k : Key}, ph[j]? = some ψ →
      e ∈ ψ.past → e.key? = some k → s.Has k :=
    fun hj he hk => (h.shows _ (List.mem_of_getElem? hj) _ he).has hk
  refine ⟨fun ψ hψ e he => ?_, fun hj hk he he' hkey hkey' => ?_, fun ψ hψ d hd d' hd' hu => ?_⟩
  · rcases mem_past_of_set hi hψ he with ⟨ψ', hψ', he⟩ | rfl
    · exact (h.shows ψ' hψ' e he).mono hcodes hrecords
    · exact hshows
  -- Of two events with a key, one that is new would have created what was there.
  · rcases past_of_set hi hj he with ⟨ψ, hj, he⟩ | ⟨rfl, rfl⟩ <;>
      rcases past_of_set hi hk he' with ⟨ψ', hk, he'⟩ | ⟨rfl, rfl⟩
    · exact h.once hj hk he he' hkey hkey'
    · exact absurd (hold hj he hkey) (hfree _ hkey')
    · exact absurd (hold hk he' hkey') (hfree _ hkey)
    · rfl
  · rcases hused d.code d' hd' hu with ⟨d'', hd'', hu''⟩ | hm
    · rcases mem_past_of_set hi hψ hd with ⟨ψ', hψ', hd⟩ | he
      · obtain ⟨χ, hχ, hm⟩ := h.used ψ' hψ' d hd d'' hd'' hu''
        obtain ⟨χ', hχ', hsub⟩ := exists_mem_set (c := c) (a := a) hi hχ
        exact ⟨χ', hχ', hsub hm⟩
      · exact absurd ⟨d'', hd''⟩ (hfree (.code d.code) (by rw [← he]; rfl))
    · exact ⟨φ.next c a, mem_set_self hi, hm ▸ mem_next φ c a⟩

theorem Sound.call (h : Sound s ph) (hi : ph[i]? = some φ) (hc : Permits φ.request φ.past c) :
    Sound (s.perform c).2 (ph.set i (φ.next c (s.perform c).1)) := by
  refine h.step hi (s.keepsCodes_perform c) (s.extends_perform c) (s.shows_perform c)
    (fun k hk => Store.not_has_of_key? hk) fun v d hd hused => ?_
  rcases s.code?_perform c v with hsame | ⟨d', he, rfl, hd'⟩ | ⟨hm, -⟩
  · exact .inl ⟨d, hsame ▸ hd, hused⟩
  · obtain rfl : d' = d := Option.some.inj (hd'.symm.trans hd)
    obtain rfl : c = .createCode d' := congrArg Sigma.fst he
    obtain ⟨r, p, now, client, -, -, -, hissued⟩ := hc
    exact absurd (hissued.used.symm.trans hused) nofun
  · exact .inr hm

theorem Sound.fail (h : Sound s ph) (hi : ph[i]? = some φ) (c : StoreCall) (e : StoreError) :
    Sound s (ph.set i (φ.next c (.error e))) := by
  have hnone : StoreEvent.key? ⟨c, .error e⟩ = none := by cases c <;> rfl
  have hshows : s.Shows ⟨c, .error e⟩ := by cases c <;> trivial
  refine h.step hi (.of_codes_eq rfl) (.refl s) hshows (fun k hk => ?_) ?_
  · cases hnone.symm.trans hk
  · exact fun v d hd hused => .inl ⟨d, hd, hused⟩

theorem Sound.register (h : Sound s ph) (clients : List Client) (users : List User) :
    Sound { s with clients, users } ph :=
  ⟨fun φ hφ e he => (h.shows φ hφ e he).mono (.of_codes_eq rfl) (.refl s), h.once, h.used⟩

theorem keeps_sound : regime.Keeps (fun w ph => Sound w.store ph) fun _ => True :=
  .ofStore rfl (fun _ _ q h => h.start q) (fun _ _ _ _ h => h.register _ _)
    (fun _ _ _ _ _ h hi hc => h.call hi hc) fun _ e _ _ _ _ _ _ c h hi _ => h.fail hi c e

end Steps

section Accounts

variable {s : Store} {ph : List Progress} {i : Nat} {φ : Progress} {c : StoreCall}

theorem Accounted.keep {a : Except StoreError c.Result} (h : Accounted s ph)
    (hi : ph[i]? = some φ) {k : Key} (hk : s.Has k) :
    ∃ ψ ∈ ph.set i (φ.next c a), ∃ e ∈ ψ.past, e.key? = some k := by
  obtain ⟨ψ, hψ, e, he, hkey⟩ := h k hk
  obtain ⟨ψ', hψ', hsub⟩ := exists_mem_set hi hψ
  exact ⟨ψ', hψ', e, hsub he, hkey⟩

theorem Accounted.call (h : Accounted s ph) (hi : ph[i]? = some φ) :
    Accounted (s.perform c).2 (ph.set i (φ.next c (s.perform c).1)) := by
  intro k hk
  rcases Store.has_perform hk with hk | hkey
  · exact h.keep hi hk
  · exact ⟨_, mem_set_self hi, _, mem_next φ c _, hkey⟩

/-- A record that a request stores has no parent, or continues one that the request has found. -/
theorem Sound.rooted (h : Sound s ph) (hs : s.Rooted) (hi : ph[i]? = some φ)
    (hc : Permits φ.request φ.past c) : (s.perform c).2.Rooted := by
  refine hs.perform c fun r he => ?_
  obtain rfl : c = .createRecord r := congrArg Sigma.fst he
  cases (show Origin φ.request φ.past r from hc) with
  | issue _ hparent => exact .inl hparent
  | code _ _ hgrants => exact .inl hgrants.parent
  | refresh hfound hcontinues =>
    obtain ⟨r', hr', hgrows⟩ := h.shows φ (List.mem_of_getElem? hi) _ hfound
    exact .inr ⟨_, r', hcontinues.parent, hr', hcontinues.grant.trans hgrows.grant.symm⟩

theorem keeps_accounted : regime.Keeps
    (fun w ph => Sound w.store ph ∧ Accounted w.store ph ∧ w.store.Rooted) fun _ => True := by
  refine .ofStore (K := fun s ph => Sound s ph ∧ Accounted s ph ∧ s.Rooted) rfl ?_ ?_ ?_ ?_
  · rintro s ph q ⟨hsound, hmade, hroot⟩
    refine ⟨hsound.start q, fun k hk => ?_, hroot⟩
    obtain ⟨φ, hφ, he⟩ := hmade k hk
    exact ⟨φ, List.mem_append_left _ hφ, he⟩
  · rintro s ph clients users ⟨hsound, hmade, hroot⟩
    refine ⟨hsound.register clients users, fun k hk => hmade k (by cases k <;> exact hk), ?_⟩
    exact fun x r hr => hroot.mono (.refl s) ⟨r, hr⟩ hr
  · rintro s ph i φ c ⟨hsound, hmade, hroot⟩ hi hc
    exact ⟨hsound.call hi hc, hmade.call hi, hsound.rooted hroot hi hc⟩
  · rintro - e - - s ph i φ c ⟨hsound, hmade, hroot⟩ hi -
    exact ⟨hsound.fail hi c e, fun k hk => hmade.keep hi hk, hroot⟩

end Accounts

theorem sound_nil (s : Store) : Sound s [] where
  shows _ hφ := absurd hφ List.not_mem_nil
  once hi := absurd (List.mem_of_getElem? hi) List.not_mem_nil
  used _ hφ := absurd hφ List.not_mem_nil

theorem sound_run (w : World) (moves : List Move) :
    Sound ((System.start w).run moves).world.store
      (regime.phases ((System.start w).run moves)) :=
  keeps_sound.of_start (sound_nil _) fun _ _ _ => trivial

theorem accounted_run {w : World} (hcodes : w.store.codes = []) (hrecords : w.store.records = [])
    (moves : List Move) :
    Accounted ((System.start w).run moves).world.store
        (regime.phases ((System.start w).run moves)) ∧
      ((System.start w).run moves).world.store.Rooted := by
  refine (keeps_accounted.of_start (w := w) ⟨sound_nil _, ?_, ?_⟩ fun _ _ _ => trivial).2
  · rintro (v | x) hk
    · obtain ⟨c, hc⟩ := hk
      simp [Store.code?, hcodes] at hc
    · obtain ⟨r, hr⟩ := hk
      simp [Store.record?, hrecords] at hr
  · intro x r hr
    simp [Store.record?, hrecords] at hr

section Threads

variable {w : World} {moves : List Move} {t u : Thread} {i j : Nat} {e e' : StoreEvent}

theorem shows_of_mem (ht : t ∈ ((System.start w).run moves).threads) (he : e ∈ t.calls) :
    ((System.start w).run moves).world.store.Shows e := by
  refine (sound_run w moves).shows _ (List.mem_map_of_mem ht) e ?_
  rwa [phase_eq]

theorem eq_of_key? {k : Key} (hi : ((System.start w).run moves).threads[i]? = some t)
    (hj : ((System.start w).run moves).threads[j]? = some u) (he : e ∈ t.calls)
    (he' : e' ∈ u.calls) (hk : e.key? = some k) (hk' : e'.key? = some k) : i = j := by
  refine (sound_run w moves).once (φ := ⟨t.request, t.calls⟩) (ψ := ⟨u.request, u.calls⟩) ?_ ?_
    he he' hk hk'
  · rw [regime.getElem?_phases hi, phase_eq]
  · rw [regime.getElem?_phases hj, phase_eq]

end Threads

end History

end TokenAuthority

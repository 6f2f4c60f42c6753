import TokenAuthority.Proofs.Chain.Descent

/-!
# Growth of a store

No call takes a record out of a store, changes anything of it but its marks, or takes a mark back
(`extends_perform`). So what is known, rotated or revoked stays so, and what descends from a record
goes on to do so.
-/

namespace TokenAuthority

open Relation

/-- The same record, with more marks perhaps. -/
structure TokenRecord.Grows (r r' : TokenRecord) : Prop where
  same : r' = { r with rotated := r'.rotated, revoked := r'.revoked }
  rotated : r.rotated = true → r'.rotated = true
  revoked : r.revoked = true → r'.revoked = true

theorem TokenRecord.Grows.refl (r : TokenRecord) : r.Grows r := ⟨rfl, fun h => h, fun h => h⟩

namespace Store

theorem grows_setRotated (r : TokenRecord) : r.Grows (setRotated r) := ⟨rfl, fun _ => rfl, id⟩

theorem grows_setRevoked (r : TokenRecord) : r.Grows (setRevoked r) := ⟨rfl, id, fun _ => rfl⟩

/-- Each record is still there, with the marks that it had. -/
def Extends (s s' : Store) : Prop :=
  ∀ x r, s.record? x = some r → ∃ r', s'.record? x = some r' ∧ r.Grows r'

section Extends

variable {s s' : Store} {x y : String}

protected theorem Extends.refl (s : Store) : s.Extends s := fun _ r hr => ⟨r, hr, .refl r⟩

theorem Extends.known (h : s.Extends s') : s.Known x → s'.Known x := by
  rintro ⟨r, hr⟩
  obtain ⟨r', hr', -⟩ := h x r hr
  exact ⟨r', hr'⟩

theorem Extends.rotated (h : s.Extends s') : s.Rotated x → s'.Rotated x := by
  rintro ⟨r, hr, hrot⟩
  obtain ⟨r', hr', hg⟩ := h x r hr
  exact ⟨r', hr', hg.rotated hrot⟩

theorem Extends.revoked (h : s.Extends s') : s.Revoked x → s'.Revoked x := by
  rintro ⟨r, hr, hrev⟩
  obtain ⟨r', hr', hg⟩ := h x r hr
  exact ⟨r', hr', hg.revoked hrev⟩

theorem Extends.parent {p : String} (h : s.Extends s') (hp : s.parent? x = some p) :
    s'.parent? x = some p := by
  obtain ⟨r, hr, hp⟩ := Option.bind_eq_some_iff.1 hp
  obtain ⟨r', hr', hg⟩ := h x r hr
  refine Option.bind_eq_some_iff.2 ⟨r', hr', ?_⟩
  rw [hg.same]
  exact hp

theorem Extends.descends (h : s.Extends s') (hd : s.Descends y x) : s'.Descends y x :=
  ReflTransGen.mono (fun _ _ hp => h.parent hp) _ _ hd

/-- What is live now has always been. -/
theorem Extends.live (h : s.Extends s') (hx : s.Known x) (hl : s'.Live x) : s.Live x := by
  obtain ⟨-, hrev, hrot⟩ := live_iff.1 hl
  exact live_iff.2 ⟨hx, fun h' => hrev (h.revoked h'), fun h' => hrot (h.rotated h')⟩

end Extends

section Perform

variable {s : Store}

theorem extends_of_map {s' : Store} {g : String → TokenRecord → TokenRecord}
    (h : ∀ x, s'.record? x = (s.record? x).map (g x))
    (hg : ∀ x (r : TokenRecord), r.Grows (g x r)) :
    s.Extends s' := by
  intro x r hr
  exact ⟨g x r, by rw [h, hr, Option.map_some], hg x r⟩

theorem extends_change {f : TokenRecord → TokenRecord} (hf : ∀ r : TokenRecord, r.Grows (f r))
    (x : String) :
    s.Extends (s.change f x) := by
  have hid : ∀ r, (f r).refreshId = r.refreshId := fun r => by rw [(hf r).same]
  refine extends_of_map (g := fun y r => if y = x then f r else r)
    (fun y => record?_change hid) fun y r => ?_
  split_ifs
  · exact hf r
  · exact .refl r

theorem extends_revokeFirst (p : TokenRecord → Bool) : s.Extends (s.revokeFirst p).2 := by
  have hupdate : ∀ (x : String) (r : TokenRecord) (l : List TokenRecord),
      l.find? (·.refreshId == x) = some r →
      ∃ r', (updateFirst p setRevoked l).find? (·.refreshId == x) = some r' ∧ r.Grows r' := by
    intro x r l
    induction l with
    | nil => nofun
    | cons a l ih =>
      intro hr
      unfold updateFirst
      by_cases ha : a.refreshId = x
      · obtain rfl : a = r := by simpa [ha] using hr
        split_ifs
        · exact ⟨setRevoked a, by simp [setRevoked, ha], grows_setRevoked a⟩
        · exact ⟨a, by simp [ha], .refl a⟩
      · have hl : l.find? (·.refreshId == x) = some r := by simpa [ha] using hr
        split_ifs
        · exact ⟨r, by simpa [setRevoked, ha] using hl, .refl r⟩
        · obtain ⟨r', hr', hg⟩ := ih hl
          exact ⟨r', by simpa [ha] using hr', hg⟩
  unfold revokeFirst
  split
  · exact .refl s
  · split_ifs
    · exact .refl s
    · exact fun x r hr => hupdate x r s.records hr

theorem extends_revokeChain (x : String) : s.Extends (s.revokeChain x).2 := by
  refine extends_of_map (g := fun y r => if y ∈ s.chain x then setRevoked r else r)
    (fun y => record?_revokeChain) fun y r => ?_
  split_ifs
  · exact grows_setRevoked r
  · exact .refl r

theorem extends_add {r : TokenRecord} (h : ¬ s.Known r.refreshId) : s.Extends (s.add r) := by
  intro x r' hr'
  have hx : x ≠ r.refreshId := by
    rintro rfl
    exact h ⟨r', hr'⟩
  exact ⟨r', by rw [record?_add h, if_neg hx, hr'], .refl r'⟩

/-- No call takes a record or a mark out of a store. -/
theorem extends_perform (s : Store) (c : StoreCall) : s.Extends (s.perform c).2 := by
  cases c with
  | createRecord r =>
    show s.Extends (s.createRecord r).2
    by_cases h : s.Known r.refreshId
    · rw [createRecord_of_known h]
      exact .refl s
    · rw [createRecord_of_not_known h]
      exact extends_add h
  | markRotated x =>
    show s.Extends (s.markRotated x).2
    by_cases h : s.Live x
    · rw [markRotated_of_live h]
      exact extends_change grows_setRotated x
    · rw [markRotated_of_not_live h]
      exact .refl s
  | revokeRecord id => exact extends_revokeFirst _
  | revokeByRefreshId x => exact extends_revokeFirst _
  | revokeChain x => exact extends_revokeChain x
  | createCode c =>
    show s.Extends (s.createCode c).2
    unfold createCode
    split
    · exact .refl s
    · exact fun x r hr => ⟨r, hr, .refl r⟩
  | markCodeUsed code =>
    show s.Extends (s.markCodeUsed code).2
    unfold markCodeUsed
    split
    · exact .refl s
    · split_ifs
      · exact .refl s
      · exact fun x r hr => ⟨r, hr, .refl r⟩
  | _ => exact .refl s

end Perform

end Store

end TokenAuthority

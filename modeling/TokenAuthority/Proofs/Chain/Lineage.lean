import TokenAuthority.Proofs.Chain.Invariant
import TokenAuthority.Proofs.Moments
import TokenAuthority.Proofs.Records

/-!
# Lineage

The parent of a record is read long before the record is stored, and in between other requests do
what they like. All the same a record that has a parent follows one that is in the store: for the
same client, user and scope, and made before that one expired (`TokenRecord.Follows`). No way up
through the parents goes on for ever, so each ends at a record without one (`Store.Lineage`). All
of this holds whatever the store fails in and however often the same secret is drawn
(`lineage_run`).
-/

namespace TokenAuthority

open Operation Relation StoreEvent Time

/-- A record has come from the refresh token of another one while that could be exchanged. -/
structure TokenRecord.Follows (r p : TokenRecord) : Prop extends r.Continues p where
  createdAt : r.createdAt < p.refreshExpiresAt

namespace Lineage

open History

/-- A request stores one record at most, without a parent or after a record that it has found, and
takes back none but one that it has stored after the record that it presents. If it asks to revoke a
record, it does so before anything else. -/
def Permits (q : Request) (past : List StoreEvent) : StoreCall → Prop
  | .createRecord r => past.filterMap StoreEvent.record? = [] ∧
      (r.parent = none ∨ ∃ p, foundRecord p ∈ past ∧ r.Follows p)
  | .revokeRecord id => ∃ r, stored r ∈ past ∧ r.id = id ∧ ∃ x, r.parent = some x ∧
      q.refreshId? = some x
  | .revokeByRefreshId _ => past = []
  | _ => True

def discipline : Discipline Progress := Progress.asking Permits

section Operations

variable {φ : Progress}

theorem obeys_burn (r : TokenRecord) :
    (Rotation.burn r).Obeys discipline (fun _ _ => True) φ := by
  unfold Rotation.burn
  refine .tryStore trivial ?_
  rintro (e | n) _
  · trivial
  · exact .ask nofun fun _ => .ask nofun fun _ => trivial

theorem unstored_next {c : StoreCall} {a : Except StoreError c.Result}
    (h : φ.past.filterMap StoreEvent.record? = []) (hc : StoreEvent.record? ⟨c, a⟩ = none) :
    (φ.next c a).past.filterMap StoreEvent.record? = [] := by
  simp [Progress.next, List.filterMap_append, h, hc]

theorem obeys_succeed {record child : TokenRecord} (tokens : TokenSet)
    (hx : φ.request.refreshId? = some record.refreshId)
    (hnew : φ.past.filterMap StoreEvent.record? = []) (hfound : foundRecord record ∈ φ.past)
    (hchild : child.Follows record) :
    (Rotation.succeed record child tokens).Obeys discipline (fun _ _ => True) φ := by
  unfold Rotation.succeed
  refine .ofStore ⟨hnew, .inr ⟨record, hfound, hchild⟩⟩ (fun _ _ => .tryStore trivial ?_)
    fun _ => trivial
  rintro (e | _ | _) _
  · have hstored : stored child ∈ (φ.next (.createRecord child) (.ok ())).past := mem_next _ _ _
    exact .tryStore ⟨child, (Progress.later_next _ _ _).past hstored, rfl, _, hchild.parent, hx⟩
      fun _ _ => trivial
  · exact obeys_burn record
  · trivial

theorem obeys_exchange {record : TokenRecord} (audience : List String) (p : TokenPolicy)
    {now : Instant} (hx : φ.request.refreshId? = some record.refreshId)
    (hnew : φ.past.filterMap StoreEvent.record? = []) (hfound : foundRecord record ∈ φ.past)
    (hnow : now < record.refreshExpiresAt) :
    (Rotation.exchange record audience p now).Obeys discipline (fun _ _ => True) φ := by
  unfold Rotation.exchange Issuance.resolveClient
  rw [bind_assoc]
  refine .ofStore trivial (fun client hc => ?_) fun _ => trivial
  rcases client with _ | client
  · trivial
  refine .mint (fun t child hminted hbears => ?_) (fun _ _ => trivial) trivial
  obtain ⟨hparent, -, hclient, huser, hscope, -⟩ := hminted
  refine obeys_succeed t hx (unstored_next hnew rfl) ((φ.later_next _ _).past hfound)
    ⟨⟨hparent, ?_, huser, hscope⟩, ?_⟩
  · exact hclient.trans (hc client rfl)
  · rw [hbears.createdAt]
    exact hnow

theorem obeys_rotate (r : Rotation.Request) (p : TokenPolicy) (now : Instant)
    (hx : φ.request.refreshId? = some r.refreshId)
    (hnew : φ.past.filterMap StoreEvent.record? = []) :
    (Rotation.rotate r p now).Obeys discipline (fun _ _ => True) φ := by
  unfold Rotation.rotate
  refine .ofStore trivial (fun record hr => ?_) fun _ => trivial
  rcases record with _ | record
  · trivial
  dsimp only
  split_ifs with hrevoked hrotated hclient hexpired
  · trivial
  · exact obeys_burn record
  · trivial
  · trivial
  have hkey : record.refreshId = r.refreshId := hr record rfl
  refine obeys_exchange r.audience p (hx.trans (congrArg some hkey.symm)) (unstored_next hnew rfl)
    ?_ ?_
  · rw [foundRecord, hkey]
    exact mem_next φ _ _
  · by_contra hlt
    exact hexpired (decide_eq_true hlt)

theorem obeys_refresh (r : Rotation.Request) (p : TokenPolicy) (now : Instant)
    (hx : φ.request.refreshId? = some r.refreshId)
    (hnew : φ.past.filterMap StoreEvent.record? = []) :
    (Rotation.refresh r p now).Obeys discipline (fun _ _ => True) φ := by
  unfold Rotation.refresh
  refine .attempt (obeys_rotate r p now hx hnew) ?_ ?_ fun _ _ => trivial
  · exact fun _ _ _ => .ask nofun fun _ => trivial
  · exact fun _ _ _ => .ask nofun fun _ => trivial

theorem obeys_issue (r : IssueRequest) (p : TokenPolicy) (now : Instant)
    (hnew : φ.past.filterMap StoreEvent.record? = []) :
    (Issuance.issue r p now).Obeys discipline (fun _ _ => True) φ := by
  unfold Issuance.issue Issuance.resolveClient
  rw [bind_assoc]
  refine .ofStore trivial (fun client _ => ?_) fun _ => trivial
  rcases client with _ | client
  · trivial
  refine .mint (fun t record hminted _ => ?_) (fun _ _ => trivial) trivial
  refine .ofStore ⟨unstored_next hnew rfl, .inl hminted.1⟩ (fun _ _ => ?_) fun _ => trivial
  exact .ask nofun fun _ => .ask nofun fun _ => .ask nofun fun _ => .ask nofun fun _ => trivial

/-- Whoever stores no records and takes back none may do so whatever has been done. -/
theorem obeys_apart {α : Type} {P : StoreCall → Prop} {x : Operation α}
    (hx : x.Obeys (.only P) (fun _ _ => True) ()) (hP : ∀ q past c, P c → Permits q past c) :
    x.Obeys discipline (fun ψ _ => ∀ e ∈ ψ.past, e ∈ φ.past ∨ P e.1) φ :=
  (obeys_of_only (hP φ.request) x φ.past hx).mono fun _ _ h => h.2.1

theorem permits_redemption (q : Request) (past : List StoreEvent) :
    ∀ c : StoreCall, c.OfRedemption → Permits q past c
  | .getCode _, _ | .markCodeUsed _, _ => trivial

theorem permits_codeIssue (q : Request) (past : List StoreEvent) :
    ∀ c : StoreCall, c.OfCodeIssue → Permits q past c
  | .getClient _, _ | .createCode _, _ => trivial

theorem record?_of_redemption {e : StoreEvent} (he : e.1.OfRedemption) : e.record? = none := by
  obtain ⟨c, a⟩ := e
  cases c with
  | createRecord => exact he.elim
  | _ => rfl

theorem obeys_codeGrant (e : Endpoint) (r : TokenRequest)
    (hnew : φ.past.filterMap StoreEvent.record? = []) :
    (e.codeGrant r).Obeys discipline (fun _ _ => True) φ := by
  unfold Endpoint.codeGrant
  refine .ofExcept (fun code _ => .ofExcept (fun clientId _ => .ofExcept (fun uri _ =>
    .ask nofun fun now => ?_) fun _ _ => trivial) fun _ _ => trivial) fun _ _ => trivial
  refine (obeys_apart (only_redeem _ _ now) permits_redemption).bind ?_
  rintro ψ (redeemed | e | _) hψ
  · have hnew' : ψ.past.filterMap StoreEvent.record? = [] := by
      refine List.filterMap_eq_nil_iff.2 fun e he => ?_
      rcases hψ e he with he | he
      · exact List.filterMap_eq_nil_iff.1 hnew e he
      · exact record?_of_redemption he
    refine .ask nofun fun now => (obeys_issue _ _ now hnew').bind ?_
    rintro _ (tokens | e | _) - <;> trivial
  · trivial
  · trivial

theorem obeys_refreshGrant (e : Endpoint) {r : TokenRequest}
    (htype : r.grantType = "refresh_token") (hx : φ.request.refreshId? = r.refreshId?)
    (hnew : φ.past.filterMap StoreEvent.record? = []) :
    (e.refreshGrant r).Obeys discipline (fun _ _ => True) φ := by
  unfold Endpoint.refreshGrant
  refine .ofExcept (fun token htoken => .ofExcept (fun clientId hclient =>
    .ask nofun fun now => ?_) fun _ _ => trivial) fun _ _ => trivial
  have hkey : φ.request.refreshId? = some (refreshIdOf token) := by
    rw [hx, TokenRequest.refreshId?, if_pos htype, (require_ok htoken).2, (require_ok hclient).2]
  refine (obeys_refresh _ _ now hkey hnew).bind ?_
  rintro _ (tokens | e | _) - <;> trivial

theorem obeys_tokenRequest (e : Endpoint) {r : TokenRequest}
    (hx : φ.request.refreshId? = r.refreshId?)
    (hnew : φ.past.filterMap StoreEvent.record? = []) :
    (e.exchange r).Obeys discipline (fun _ _ => True) φ := by
  unfold Endpoint.exchange
  split_ifs with hcode hrefresh
  · exact obeys_afterRotation (obeys_codeGrant e r hnew)
  · exact obeys_afterRotation (obeys_refreshGrant e hrefresh hx hnew)
  · trivial

/-- A revocation that succeeds was performed by the store. -/
def Fits : (q : Request) → Progress → Outcome q.Result → Prop
  | .revoke t, φ, o => ∀ u, o = .ok u →
      ∃ b : Bool, (⟨.revokeByRefreshId (refreshIdOf t), .ok b⟩ : StoreEvent) ∈ φ.past
  | _, _, _ => True

theorem obeys_revoke (t : String) :
    (Endpoint.revoke t).Obeys discipline (Fits (.revoke t)) ⟨.revoke t, []⟩ := by
  unfold Endpoint.revoke
  split_ifs
  · exact nofun
  · refine .ofStore rfl (fun b _ => ?_) fun _ => nofun
    have hmade := mem_next ⟨.revoke t, []⟩ (.revokeByRefreshId (refreshIdOf t)) (.ok b)
    cases b with
    | true => exact .ask nofun fun _ _ _ => ⟨_, hmade⟩
    | false => exact fun _ _ => ⟨_, hmade⟩

theorem obeys_request (q : Request) : q.operation.Obeys discipline (Fits q) ⟨q, []⟩ := by
  cases q with
  | issue r p now => exact obeys_issue r p now rfl
  | refresh r p now => exact obeys_refresh r p now rfl rfl
  | revoke t => exact obeys_revoke t
  | issueCode r p now =>
    exact (obeys_apart (only_issueCode p r now) permits_codeIssue).mono fun _ _ _ => trivial
  | redeem r p now =>
    exact (obeys_apart (only_redeem p r now) permits_redemption).mono fun _ _ _ => trivial
  | exchange e r => exact obeys_tokenRequest e rfl rfl
  | token e r => exact (obeys_token (obeys_tokenRequest e rfl rfl)).mono fun _ _ _ => trivial
  | userinfo t =>
    refine (obeys_apart (only_userinfo t) ?_).mono fun _ _ _ => trivial
    rintro _ _ _ ⟨id, rfl⟩
    trivial
  | _ => exact .of_quiet (fun _ _ => trivial) (quiet_request rfl)

end Operations

def regime : Regime Progress := ⟨discipline, fun q => ⟨q, []⟩, Fits, obeys_request⟩

theorem phase_eq (t : Thread) : regime.phase t = ⟨t.request, t.calls⟩ :=
  phase_append_past Permits t.past ⟨t.request, []⟩

/-- What a request asks of the store rests on what it has done. -/
theorem permits_of_makes {w : World} {moves : List Move} {i : Nat} {q : Request} {c : StoreCall}
    (h : ((System.start w).run moves).Makes i q (.store c)) :
    ∃ t ∈ ((System.start w).run moves).threads, t.request = q ∧ Permits q t.calls c := by
  obtain ⟨t, hi, hq, -, hc⟩ := regime.allows_of_makes h
  rw [phase_eq] at hc
  exact ⟨t, List.mem_of_getElem? hi, hq, hq ▸ hc⟩

end Lineage

theorem TokenRecord.Follows.grows {r r' p p' : TokenRecord} (hr : r.Grows r') (hp : p.Grows p')
    (h : r.Follows p) : r'.Follows p' := by
  rw [hr.same, hp.same]
  exact ⟨⟨h.parent, h.clientId, h.userId, h.scope⟩, h.createdAt⟩

namespace Store

variable {s : Store}

/-- Each record that has a parent follows it. -/
def Traced (s : Store) : Prop :=
  ∀ x r, s.record? x = some r → ∀ y, r.parent = some y → ∃ p, s.record? y = some p ∧ r.Follows p

/-- From nowhere does the way up through the parents go on for ever. -/
def Ends (s : Store) : Prop := WellFounded fun x y => s.parent? y = some x

theorem Traced.grounded (h : s.Traced) : s.Grounded := by
  intro x y hxy
  obtain ⟨r, hr, hparent⟩ := Option.bind_eq_some_iff.1 hxy
  obtain ⟨p, hp, -⟩ := h x r hr y hparent
  exact ⟨p, hp⟩

/-- A record that is stored has no parent, or follows one that is there. -/
theorem Traced.perform (h : s.Traced) (c : StoreCall)
    (hadd : ∀ r, (⟨c, (s.perform c).1⟩ : StoreEvent) = stored r → ∀ y, r.parent = some y →
      ∃ p, s.record? y = some p ∧ r.Follows p) : (s.perform c).2.Traced := by
  have hext := s.extends_perform c
  intro x r hr y hy
  have hbefore : ∃ (r₀ p : TokenRecord), r₀.Grows r ∧ s.record? y = some p ∧ r₀.Follows p := by
    rcases s.record?_perform c hr with ⟨r₀, hr₀, hgrows⟩ | ⟨he, -, -⟩
    · obtain ⟨p, hp, hfollows⟩ := h x r₀ hr₀ y (hgrows.parent.symm.trans hy)
      exact ⟨r₀, p, hgrows, hp, hfollows⟩
    · obtain ⟨p, hp, hfollows⟩ := hadd r he y hy
      exact ⟨r, p, .refl r, hp, hfollows⟩
  obtain ⟨r₀, p, hgrows, hp, hfollows⟩ := hbefore
  obtain ⟨p', hp', hgrows'⟩ := hext y p hp
  exact ⟨p', hp', hfollows.grows hgrows hgrows'⟩

theorem Ends.add (h : s.Ends) (hground : s.Grounded) {r : TokenRecord}
    (hr : ¬ s.Known r.refreshId) (hparent : ∀ x, r.parent = some x → s.Known x) :
    (s.add r).Ends := by
  -- No way up that begins elsewhere comes through the new record.
  have hold : ∀ y, y ≠ r.refreshId → Acc (fun x y => (s.add r).parent? y = some x) y := by
    intro y
    induction y using h.induction with
    | _ y ih =>
      intro hy
      refine ⟨_, fun x hx => ?_⟩
      rw [parent?_add hr, if_neg hy] at hx
      exact ih x hx fun he => hr (he ▸ hground y x hx)
  refine ⟨fun y => ?_⟩
  by_cases hy : y = r.refreshId
  · refine ⟨_, fun x hx => hold x ?_⟩
    rw [parent?_add hr, if_pos hy] at hx
    rintro rfl
    exact hr (hparent _ hx)
  · exact hold y hy

theorem Ends.perform (h : s.Ends) (hground : s.Grounded) (c : StoreCall)
    (hadd : ∀ r, (⟨c, (s.perform c).1⟩ : StoreEvent) = stored r → ∀ x, r.parent = some x →
      s.Known x) : (s.perform c).2.Ends := by
  rcases s.links_perform c with hlinks | ⟨r, he, hr, hs⟩
  · unfold Ends
    rwa [parent?_eq_of_links hlinks]
  · rw [hs]
    exact h.add hground hr (hadd r he)

theorem Ends.exists_root (h : s.Ends) (hground : s.Grounded) {x : String} (hx : s.Known x) :
    ∃ y root, s.Descends x y ∧ s.record? y = some root ∧ root.parent = none := by
  induction x using h.induction with
  | _ x ih =>
    obtain ⟨r, hr⟩ := hx
    rcases hparent : r.parent with _ | p
    · exact ⟨x, r, .refl, hr, hparent⟩
    · have hxp : s.parent? x = some p := Option.bind_eq_some_iff.2 ⟨r, hr, hparent⟩
      obtain ⟨y, root, hpy, hroot⟩ := ih p hxp (hground x p hxp)
      exact ⟨y, root, .head hxp hpy, hroot⟩

theorem Keyed.perform (h : s.Keyed) (c : StoreCall) : (s.perform c).2.Keyed := by
  rcases s.links_perform c with hlinks | ⟨r, -, hr, hs⟩
  · exact keyed_of_links hlinks h
  · rw [hs]
    exact h.add hr

/-- How the records of a store hang together. -/
structure Lineage (s : Store) : Prop where
  /-- Each record is the one that its refresh identifier is looked up by. -/
  keyed : s.Keyed ∧ ∀ r ∈ s.records, s.record? r.refreshId = some r
  parent : ∀ r ∈ s.records, ∀ x, r.parent = some x → ∃ p ∈ s.records, p.refreshId = x ∧ r.Follows p
  ends : s.Ends
  root : ∀ r ∈ s.records, ∃ root ∈ s.records, s.Descends r.refreshId root.refreshId ∧
    root.parent = none
  filled : ∀ r ∈ s.records, r.Filled

theorem Lineage.of_traced (hkeyed : s.Keyed) (htraced : s.Traced) (hends : s.Ends)
    (hfilled : s.All TokenRecord.Filled) : s.Lineage where
  keyed := ⟨hkeyed, fun _ hr => hkeyed.record? hr⟩
  parent r hr x hx := by
    obtain ⟨p, hp, hfollows⟩ := htraced _ r (hkeyed.record? hr) x hx
    exact ⟨p, List.mem_of_find?_eq_some hp, record?_refreshId hp, hfollows⟩
  ends := hends
  root r hr := by
    obtain ⟨y, root, hdesc, hroot, hnone⟩ :=
      hends.exists_root htraced.grounded ⟨r, hkeyed.record? hr⟩
    obtain rfl := record?_refreshId hroot
    exact ⟨root, List.mem_of_find?_eq_some hroot, hdesc, hnone⟩
  filled r hr := hfilled _ r (hkeyed.record? hr)

end Store

/-- A record with a parent that a request is about to store follows one that is there. -/
theorem System.follows_of_makes {w : World} {moves : List Move} {i : Nat} {q : Request}
    {r : TokenRecord} (h : ((start w).run moves).Makes i q (.store (.createRecord r))) {y : String}
    (hy : r.parent = some y) :
    ∃ p, ((start w).run moves).world.store.record? y = some p ∧ r.Follows p := by
  obtain ⟨t, ht, -, -, hnone | ⟨p, hfound, hfollows⟩⟩ := Lineage.permits_of_makes h
  · cases hy.symm.trans hnone
  obtain ⟨p', hp', hgrows⟩ := History.shows_of_mem ht hfound
  obtain rfl : p.refreshId = y := Option.some.inj (hfollows.parent.symm.trans hy)
  exact ⟨p', hp', hfollows.grows (.refl r) hgrows⟩

/-- From a store without records, whatever is asked and in whatever order, whichever calls the
store fails in and whatever bytes are drawn: the records are found by their refresh identifiers,
the parent of each is there and is followed by it, and the way up from each ends at a record
without a parent. -/
theorem lineage_run {w : World} (hw : w.store.records = []) (moves : List Move) :
    ((System.start w).run moves).world.store.Lineage := by
  have htraced : ((System.start w).run moves).world.store.Keyed ∧
      ((System.start w).run moves).world.store.Traced ∧
      ((System.start w).run moves).world.store.Ends := by
    refine System.store_run (K := fun s => s.Keyed ∧ s.Traced ∧ s.Ends) ?_
      (fun _ _ _ h => h) ?_ moves
    · have hnone : ∀ x, w.store.record? x = none := fun x => by simp [Store.record?, hw]
      refine ⟨by simp [Store.Keyed, Store.links, hw], fun x r hr => ?_,
        ⟨fun x => ⟨_, fun y hy => ?_⟩⟩⟩
      · cases (hnone x).symm.trans hr
      · rw [Store.parent?, hnone] at hy
        cases hy
    · rintro moves i q c hmakes ⟨hkeyed, htraced, hends⟩
      have hadd : ∀ r, (⟨c, (((System.start w).run moves).world.store.perform c).1⟩ : StoreEvent) =
          stored r → ∀ y, r.parent = some y →
          ∃ p, ((System.start w).run moves).world.store.record? y = some p ∧ r.Follows p := by
        rintro r he y hy
        obtain rfl : c = .createRecord r := congrArg Sigma.fst he
        exact System.follows_of_makes hmakes hy
      refine ⟨hkeyed.perform c, htraced.perform c hadd, hends.perform htraced.grounded c ?_⟩
      intro r he x hx
      obtain ⟨p, hp, -⟩ := hadd r he x hx
      exact ⟨p, hp⟩
  exact .of_traced htraced.1 htraced.2.1 htraced.2.2 (filled_run hw moves)

/-- Two requests race for one refresh token, and both leave a child. -/
theorem lineage_run_race :
    Sample.world.store.records = [] ∧
    Sample.raced.world.store.records.map (fun r => (r.refreshId, r.parent)) =
      [(Sample.refreshId 1, none), (Sample.refreshId 3, some (Sample.refreshId 1)),
        (Sample.refreshId 2, some (Sample.refreshId 1))] ∧
    Sample.raced.world.store.Lineage := by
  have hw : Sample.world.store.records = [] := rfl
  refine ⟨hw, by decide +kernel, ?_⟩
  rw [Sample.raced]
  exact lineage_run hw Sample.race

end TokenAuthority
